import PonyOS.Process.Invariant
import PonyOS.Lib.RoundRobin

/-!
# The scheduler is fair

A tick leaves for the first schedulable process after the current one in the
cyclic order of the pids.  Between ticks nothing that decides schedulability
changes, so consecutive ticks are the turns of a round robin over the eight
slots, whatever process was current at the start.

The bookkeeping that this rests on holds for every image, also for one whose
failing executions leave a slot claimed.  Where the first launch of all fails so,
there is a process to schedule and none is current: the next tick takes the control
block of no process.
-/

namespace PonyOS.Process

open PonyOS.FileSystem
open PonyOS.Lib.RoundRobin
open PonyOS.Lib.Transition
open PonyOS.Lib.Word
open PonyOS.Paging
open PonyOS.Terminal

namespace ProcessTable

/-! ## Bookkeeping -/

/-- A pointer to the control block of a process. -/
def Names (table : ProcessTable) (pid : Nat) : Prop :=
  pid < 8 ∧ (table.links pid).pid = pid

/-- What the bookkeeping of processes keeps, whatever fails. -/
structure Accounted (table : ProcessTable) : Prop where
  range : ∀ pid, table.running pid = true → 1 ≤ pid ∧ pid < 8
  count : table.total = runningCount table.running
  running : ∀ pid, table.running pid = true → table.Names pid
  current : ∀ pid, table.current = some pid → table.Names pid
  parent : ∀ slot pid, (table.links slot).parent = some pid → table.Names pid

namespace Accounted

variable {table target : ProcessTable}

/-- A slot is claimed, with or without becoming current. -/
theorem claim (accounted : table.Accounted) {pid : Nat} (lower : 1 ≤ pid) (upper : pid < 8)
    (free : table.running pid = false)
    (runs : target.running = Function.update table.running pid true)
    (total : target.total = table.total + 1)
    (pidField : ∀ slot, (target.links slot).pid =
      if slot = pid then pid else (table.links slot).pid)
    (current : target.current = some pid ∨ target.current = table.current)
    (parent : ∀ slot, (target.links slot).parent = table.current ∨
      (target.links slot).parent = (table.links slot).parent) : target.Accounted := by
  have claimed : target.Names pid := by
    refine ⟨upper, ?_⟩
    rw [pidField, if_pos rfl]
  have kept : ∀ other, table.Names other → target.Names other := by
    intro other names
    refine ⟨names.1, ?_⟩
    rw [pidField]
    split
    · next same => exact same.symm
    · exact names.2
  constructor
  · intro other isRunning
    rw [runs] at isRunning
    by_cases same : other = pid
    · rw [same]
      exact ⟨lower, upper⟩
    · rw [Function.update_of_ne same] at isRunning
      exact accounted.range other isRunning
  · rw [total, runs, runningCount_start upper free, accounted.count]
    rfl
  · intro other isRunning
    rw [runs] at isRunning
    by_cases same : other = pid
    · rw [same]
      exact claimed
    · rw [Function.update_of_ne same] at isRunning
      exact kept other (accounted.running other isRunning)
  · intro other isCurrent
    rcases current with isNew | isOld
    · cases isNew.symm.trans isCurrent
      exact claimed
    · exact kept other (accounted.current other (isOld.symm.trans isCurrent))
  · intro slot other isParent
    rcases parent slot with isCurrent | isOld
    · exact kept other (accounted.current other (isCurrent.symm.trans isParent))
    · exact kept other (accounted.parent slot other (isOld.symm.trans isParent))

/-- A start is a claim that makes its process current. -/
theorem spawn (accounted : table.Accounted) {pid : Nat} (terminal : Nat) (isTerminal : Int)
    (lower : 1 ≤ pid) (upper : pid < 8) (free : table.running pid = false) :
    (table.spawn pid terminal isTerminal).Accounted := by
  have links : ∀ slot, ((table.spawn pid terminal isTerminal).links slot).pid =
        (if slot = pid then pid else (table.links slot).pid) ∧
      ((table.spawn pid terminal isTerminal).links slot).parent =
        if slot = pid then table.current else (table.links slot).parent := by
    intro slot
    rw [table.spawn_links pid terminal isTerminal slot]
    by_cases same : slot = pid
    · rw [same, Function.update_self, if_pos rfl, if_pos rfl]
      exact ⟨rfl, rfl⟩
    · rw [Function.update_of_ne same, if_neg same, if_neg same]
      exact ⟨rfl, rfl⟩
  apply accounted.claim lower upper free rfl rfl (fun slot => (links slot).1) (.inl rfl)
  intro slot
  rw [(links slot).2]
  split
  · exact .inl rfl
  · exact .inr rfl

theorem stop (accounted : table.Accounted) {pid : Nat} (isRunning : table.running pid = true) :
    (table.stop pid).Accounted := by
  have others : ∀ other, (table.stop pid).running other = true → table.running other = true := by
    intro other runs
    simp only [ProcessTable.stop] at runs
    by_cases same : other = pid
    · rw [same]
      exact isRunning
    · rwa [Function.update_of_ne same] at runs
  constructor
  · intro other runs
    exact accounted.range other (others other runs)
  · have fewer := runningCount_stop (accounted.range pid isRunning).2 isRunning
    simp only [ProcessTable.stop, accounted.count]
    omega
  · intro other runs
    exact accounted.running other (others other runs)
  · exact accounted.current
  · exact accounted.parent

/-- Another process becomes current; child pointers may change. -/
theorem enter (accounted : table.Accounted) {pid : Nat} (names : table.Names pid)
    (runs : target.running = table.running) (total : target.total = table.total)
    (pidField : ∀ slot, (target.links slot).pid = (table.links slot).pid)
    (parent : ∀ slot, (target.links slot).parent = (table.links slot).parent)
    (current : target.current = some pid) : target.Accounted := by
  have kept : ∀ other, table.Names other → target.Names other := by
    intro other names
    exact ⟨names.1, (pidField other).trans names.2⟩
  constructor
  · rw [runs]
    exact accounted.range
  · rw [runs, total]
    exact accounted.count
  · intro other isRunning
    rw [runs] at isRunning
    exact kept other (accounted.running other isRunning)
  · intro other isCurrent
    cases current.symm.trans isCurrent
    exact kept pid names
  · intro slot other isParent
    exact kept other (accounted.parent slot other ((parent slot).symm.trans isParent))

theorem leave (accounted : table.Accounted) {pid parent : Nat}
    (isRunning : table.running pid = true) (isParent : (table.links pid).parent = some parent) :
    (table.leave pid parent).Accounted := by
  have names := accounted.parent pid parent isParent
  refine (accounted.stop isRunning).enter names ?_ ?_ ?_ ?_ ?_
  · rfl
  · rfl
  · exact Inv.leave_pid table pid parent
  · exact Inv.leave_parent table pid parent
  · exact congrArg some names.2

end Accounted

end ProcessTable

namespace Kernel

/-- The bookkeeping of a kernel. -/
def Accounted (kernel : Kernel) : Prop :=
  kernel.table.Accounted

variable {kernel target : Kernel}

theorem Accounted.boot (fs : Volume) (paging : PageTables) (memory : Memory)
    (printBuffer argBuf fname : Nat → UInt8) (currentDirReadIndex : Int) :
    (Kernel.boot fs paging memory printBuffer argBuf fname currentDirReadIndex).Accounted := by
  constructor
  case count => rfl
  case range => exact fun pid isRunning => nomatch isRunning
  case running => exact fun pid isRunning => nomatch isRunning
  case current => exact fun pid isCurrent => nomatch isCurrent
  case parent => exact fun slot pid isParent => nomatch isParent

theorem Accounted.execute (accounted : kernel.Accounted) {registers : Registers}
    {tempBuf : Nat → UInt8} {command : Option CString} {terminalNum : Nat} {isTerminal : Int}
    {reply : ExecuteReply}
    (ended : executeWithTerminalNum kernel registers tempBuf command terminalNum isTerminal =
      some (reply, target)) : target.Accounted := by
  rcases executeWithTerminalNum_cases ended with
    ⟨-, fname, rfl⟩ | ⟨text, pid, -, found, outcome⟩
  · exact accounted
  · obtain ⟨lower, upper, free⟩ := Kernel.getEmptyPid_eq_some found
    rcases outcome with ⟨-, -, -, rfl⟩ | ⟨entry, -, rfl⟩
    · unfold Kernel.Accounted
      rw [Kernel.claimProcess_table]
      refine accounted.claim lower upper free rfl rfl ?_ (.inr rfl) ?_
      · intro slot
        by_cases same : slot = pid
        · simp [same]
        · simp [same]
          rfl
      · intro slot
        refine .inr ?_
        by_cases same : slot = pid
        · simp [same]
          rfl
        · simp [same]
          rfl
    · unfold Kernel.Accounted
      rw [Kernel.startProcess_table]
      exact accounted.spawn terminalNum isTerminal lower upper free

/-- Every process event keeps the books. -/
theorem Accounted.step (accounted : kernel.Accounted) {event : ProcessEvent} {reply : ProcessReply}
    (moved : Moved kernel target event reply) : target.Accounted := by
  cases moved with
  | launched registers tempBuf outcome noCurrent executed => exact accounted.execute executed
  | executed caller registers tempBuf command outcome isUser executed =>
      exact accounted.execute executed
  | halted caller tempBuf status outcome isUser ended =>
      obtain ⟨isCurrent, isRunning⟩ := Kernel.userProcess_eq_some.mp isUser
      have pidField : (kernel.pcb caller).pid = caller :=
        (accounted.running caller isRunning).2
      rcases halt_cases isCurrent ended with
        ⟨-, entry, -, rfl⟩ | ⟨-, -, -, rfl⟩ | ⟨-, -, parent, parentEq, -, rfl⟩
      · exact accounted
      · unfold Kernel.Accounted
        rw [Kernel.stopRoot_table, pidField]
        exact accounted.stop isRunning
      · unfold Kernel.Accounted
        rw [pidField, Kernel.returnToParent_table]
        exact accounted.leave isRunning parentEq
  | cleared isClearing targetEq =>
      rw [targetEq, Kernel.Accounted, Kernel.clearScreen_table]
      exact accounted
  | keyed registers tempBuf c outcome ended =>
      obtain ⟨result, -, ⟨-, -, rfl⟩ | ⟨terminalId, started, -, -, executed⟩⟩ :=
        keyboardInterrupt_cases ended
      · exact ⟨accounted.range, accounted.count, accounted.running, accounted.current,
          accounted.parent⟩
      · apply Accounted.execute _ executed
        exact ⟨accounted.range, accounted.count, accounted.running, accounted.current,
          accounted.parent⟩
  | ticked registers loaded ended =>
      rcases pitHandler_cases ended with ⟨-, rfl⟩ | ⟨previous, pid, -, -, isRunning, -, rfl, -⟩
      · exact accounted
      · unfold Kernel.Accounted
        rw [Kernel.switchProcess_table]
        have names := accounted.running pid (Kernel.processStatus_of_isRunning isRunning)
        refine ProcessTable.Accounted.enter accounted names ?_ ?_ ?_ ?_ ?_
        · rfl
        · rfl
        · exact fun _ => rfl
        · exact fun _ => rfl
        · rfl

end Kernel

/-! ## One tick -/

/-- A process the scheduler may run: it runs and waits for no child. -/
def Kernel.Schedulable (kernel : Kernel) (pid : Nat) : Prop :=
  kernel.isRunning pid = true ∧ (kernel.pcb pid).child = none

/-- The search accepts the first schedulable process, or comes back to where it
started.  Candidate `t` of the unrolled cycle is slot `t % 8`. -/
theorem pitSearch_first {kernel : Kernel} {start found : Nat} {fuel t : Nat}
    (searched : pitSearch kernel (start % maxPid) fuel (t % maxPid) = some found)
    (after : start < t) (round : t ≤ start + maxPid)
    (skipped : ∀ u, start < u → u < t → ¬ kernel.Schedulable (u % maxPid)) :
    ∃ later, start < later ∧ found = later % maxPid ∧
      (∀ u, start < u → u < later → ¬ kernel.Schedulable (u % maxPid)) ∧
      (later = start + maxPid ∨ kernel.Schedulable found) := by
  induction fuel generalizing t with
  | zero => contradiction
  | succ fuel ih =>
      simp only [pitSearch] at searched
      split at searched
      · next same =>
          cases searched
          refine ⟨t, after, rfl, skipped, .inl ?_⟩
          unfold maxPid at same round ⊢
          omega
      · next notStart =>
          split at searched
          · next accepted =>
              cases searched
              exact ⟨t, after, rfl, skipped, .inr accepted⟩
          · next refused =>
              have next : nextPid (t % maxPid) = (t + 1) % maxPid := by
                unfold nextPid maxPid
                omega
              rw [next] at searched
              apply ih searched (Nat.lt_succ_of_lt after)
              · have distinct : t ≠ start + maxPid := by
                  rintro rfl
                  exact notStart (Nat.add_mod_right start maxPid)
                omega
              · intro u afterStart upTo
                rcases Nat.lt_succ_iff_lt_or_eq.mp upTo with earlier | rfl
                · exact skipped u afterStart earlier
                · exact refused

/-- A switch changes no process that could be scheduled. -/
theorem Kernel.switchProcess_schedulable (kernel : Kernel) (previous pid : Nat)
    (registers : Registers) :
    (kernel.switchProcess previous pid registers).Schedulable = kernel.Schedulable := by
  have table := kernel.switchProcess_table previous pid registers
  have running : (kernel.switchProcess previous pid registers).processStatus =
      kernel.processStatus := congrArg ProcessTable.running table
  funext other
  have links := congrArg (fun view : ProcessTable => (view.links other).child) table
  have child : ((kernel.switchProcess previous pid registers).pcb other).child =
      (kernel.pcb other).child := links
  unfold Kernel.Schedulable Kernel.isRunning
  rw [running, child]

/-- Nor does the end of a root. -/
theorem Kernel.clearScreen_schedulable (kernel : Kernel) :
    kernel.clearScreen.Schedulable = kernel.Schedulable := by
  unfold Kernel.Schedulable Kernel.isRunning
  rw [kernel.clearScreen_processStatus, kernel.clearScreen_pcb]

/-- With a schedulable process somewhere, the search ends in the next turn of
the round robin. -/
theorem Kernel.Accounted.search {kernel : Kernel} (accounted : kernel.Accounted)
    (schedulable : ∃ pid, kernel.Schedulable pid) (position : Nat) :
    ∃ later, FirstAfter maxPid kernel.Schedulable position later ∧
      pitSearch kernel (position % maxPid) maxPid (nextPid (position % maxPid)) =
        some (later % maxPid) := by
  obtain ⟨ready, isReady⟩ := schedulable
  have currentLt : position % maxPid < maxPid := Nat.mod_lt _ (by decide)
  have nextLt : nextPid (position % maxPid) < maxPid := Nat.mod_lt _ (by decide)
  have nextEq : nextPid (position % maxPid) = (position + 1) % maxPid := by
    unfold nextPid maxPid
    omega
  obtain ⟨found, searched⟩ := Option.isSome_iff_exists.mp
    (pitSearch_isSome kernel currentLt nextLt (Nat.mod_lt _ (by decide) : _ < maxPid))
  rw [nextEq] at searched ⊢
  obtain ⟨later, after, rfl, skipped, outcome⟩ := pitSearch_first searched
    (Nat.lt_succ_self position) (by unfold maxPid; omega)
    (fun u afterStart upTo => absurd (Nat.lt_of_lt_of_le afterStart (Nat.le_of_lt_succ upTo))
      (Nat.lt_irrefl _))
  refine ⟨later, ⟨after, ?_, skipped⟩, searched⟩
  rcases outcome with rfl | accepted
  · -- The search came full circle, so it has refused every other slot.
    by_contra refused
    have readyLt : ready < 8 :=
      (accounted.range ready (Kernel.processStatus_of_isRunning isReady.1)).2
    obtain ⟨u, afterStart, upTo, slot⟩ :
        ∃ u, position < u ∧ u < position + maxPid + 1 ∧ u % maxPid = ready := by
      refine ⟨position + 1 + (ready + 8 * (position + 1) - (position + 1)) % 8, ?_⟩
      unfold maxPid
      omega
    rcases Nat.lt_succ_iff_lt_or_eq.mp upTo with earlier | rfl
    · exact skipped u afterStart earlier (slot ▸ isReady)
    · exact refused (slot ▸ isReady)
  · exact accepted

/-- A tick makes the process that the search found current. -/
theorem pitHandler_of_search {kernel : Kernel} {previous found : Nat} (registers : Registers)
    (someRun : kernel.totalRunningProcess ≠ 0) (isCurrent : kernel.currentPid = some previous)
    (pidField : (kernel.pcb previous).pid = previous)
    (searched : pitSearch kernel previous maxPid (nextPid previous) = some found) :
    ∃ reply next, pitHandler kernel registers = some (reply, next) ∧
      next.currentPid = some found ∧ next.Schedulable = kernel.Schedulable := by
  unfold pitHandler
  simp only [someRun, if_false, isCurrent, pidField, searched]
  by_cases same : found = previous
  · rw [if_pos same, same]
    exact ⟨none, kernel, rfl, isCurrent, rfl⟩
  · rw [if_neg same]
    exact ⟨_, _, rfl, rfl, kernel.switchProcess_schedulable previous found registers⟩

/-- A tick is the next turn of the round robin. -/
theorem Kernel.Accounted.tick {kernel : Kernel} (accounted : kernel.Accounted) {position : Nat}
    (isCurrent : kernel.currentPid = some (position % maxPid))
    (schedulable : ∃ pid, kernel.Schedulable pid) (registers : Registers) :
    ∃ reply next later, pitHandler kernel registers = some (reply, next) ∧
      FirstAfter maxPid kernel.Schedulable position later ∧
      next.currentPid = some (later % maxPid) ∧ next.Schedulable = kernel.Schedulable := by
  obtain ⟨later, first, searched⟩ := accounted.search schedulable position
  have someRun : kernel.totalRunningProcess ≠ 0 := by
    obtain ⟨ready, isReady⟩ := schedulable
    have runs := Kernel.processStatus_of_isRunning isReady.1
    have count : kernel.totalRunningProcess =
        (ProcessTable.runningCount kernel.processStatus : Nat) := accounted.count
    have positive := ProcessTable.runningCount_pos (accounted.range ready runs).2 runs
    change 0 < ProcessTable.runningCount kernel.processStatus at positive
    omega
  obtain ⟨reply, next, ticked, nextCurrent, same⟩ := pitHandler_of_search registers someRun
    isCurrent (accounted.current _ isCurrent).2 searched
  exact ⟨reply, next, later, ticked, first, nextCurrent, same⟩

/-! ## Consecutive ticks -/

/-- The kernels after each of some consecutive ticks; `none` when a tick does
not end. -/
def ticks (kernel : Kernel) : List Registers → Option (List Kernel)
  | [] => some []
  | registers :: rest =>
      match pitHandler kernel registers with
      | none => none
      | some (_, next) => (ticks next rest).map (next :: ·)

/-- However many ticks follow, each ends with a schedulable process current,
and no schedulable process is current two times more often than another. -/
def FairlyScheduled (kernel : Kernel) : Prop :=
  ∀ registers : List Registers, ∃ states, ticks kernel registers = some states ∧
    states.length = registers.length ∧
    (∀ state ∈ states, ∃ pid, state.currentPid = some pid ∧ state.Schedulable pid) ∧
    ∀ first second, kernel.Schedulable first → kernel.Schedulable second →
      (states.map Kernel.currentPid).count (some first) ≤
        (states.map Kernel.currentPid).count (some second) + 1

/-- Consecutive ticks are turns of the round robin. -/
theorem Kernel.Accounted.ticks {kernel : Kernel} (accounted : kernel.Accounted) {position : Nat}
    (isCurrent : kernel.currentPid = some (position % maxPid))
    (schedulable : ∃ pid, kernel.Schedulable pid) (registers : List Registers) :
    ∃ states slots last, Process.ticks kernel registers = some states ∧
      states.length = registers.length ∧
      Turns maxPid kernel.Schedulable position slots last ∧
      states.map Kernel.currentPid = slots.map some ∧
      ∀ state ∈ states, state.Schedulable = kernel.Schedulable := by
  induction registers generalizing kernel position with
  | nil =>
      refine ⟨[], [], position, rfl, rfl, .nil position, rfl, ?_⟩
      intro state member
      exact absurd member List.not_mem_nil
  | cons saved rest ih =>
      obtain ⟨reply, next, later, ticked, first, nextCurrent, same⟩ :=
        accounted.tick isCurrent schedulable saved
      have nextAccounted : next.Accounted := accounted.step (.ticked saved reply ticked)
      obtain ⟨states, slots, last, ran, length, turns, currents, kept⟩ :=
        ih nextAccounted nextCurrent (same ▸ schedulable)
      rw [same] at turns kept
      refine ⟨next :: states, later % maxPid :: slots, last, ?_, ?_, .cons first turns, ?_, ?_⟩
      · simp only [Process.ticks, ticked, ran, Option.map_some]
      · rw [List.length_cons, List.length_cons, length]
      · rw [List.map_cons, List.map_cons, nextCurrent, currents]
      · intro state member
        rcases List.mem_cons.mp member with rfl | later
        · exact same
        · exact kept state later

theorem Kernel.Accounted.fairlyScheduled {kernel : Kernel} (accounted : kernel.Accounted)
    {current : Nat} (isCurrent : kernel.currentPid = some current)
    (schedulable : ∃ pid, kernel.Schedulable pid) : FairlyScheduled kernel := by
  intro registers
  have currentLt : current < 8 := (accounted.current current isCurrent).1
  have position : kernel.currentPid = some (current % maxPid) := by
    rw [Nat.mod_eq_of_lt (show current < maxPid from currentLt)]
    exact isCurrent
  obtain ⟨states, slots, last, ran, length, turns, currents, kept⟩ :=
    accounted.ticks position schedulable registers
  refine ⟨states, ran, length, ?_, ?_⟩
  · intro state member
    have inMap := List.mem_map_of_mem (f := Kernel.currentPid) member
    rw [currents] at inMap
    obtain ⟨pid, visited, currentEq⟩ := List.mem_map.mp inMap
    rw [kept state member]
    exact ⟨pid, currentEq.symm, turns.isReady visited⟩
  · intro first second firstReady secondReady
    have inRange : ∀ pid, kernel.Schedulable pid → pid < maxPid := fun pid ready =>
      (accounted.range pid (Kernel.processStatus_of_isRunning ready.1)).2
    have counted : ∀ pid, (slots.map some).count (some pid) = slots.count pid := fun pid =>
      List.count_map_of_injective slots some (Option.some_injective Nat) pid
    rw [currents, counted, counted]
    exact turns.fair firstReady secondReady (inRange first firstReady)
      (inRange second secondReady)

/-- In every reachable state with a schedulable process the scheduler is fair,
whether the current process runs or is a root that has halted and spins.  The
image is well formed, or it is any image and a first process was started. -/
theorem reachable_fairlyScheduled {memory screen : Memory} {start : Nat} {paging : PageTables}
    {printBuffer argBuf fname : Nat → UInt8} {currentDirReadIndex : Int}
    {trace : List (ProcessEvent × ProcessReply)} {final : Kernel}
    (run : Run processStep (Kernel.boot (filesysInit memory start) paging screen printBuffer
      argBuf fname currentDirReadIndex) trace final)
    (begun : (∃ image : Image, Loaded memory start image ∧ image.WellFormed) ∨ Begun trace)
    (schedulable : ∃ pid, final.Schedulable pid) : FairlyScheduled final := by
  have accounted : final.Accounted := by
    apply run.invariant (P := Kernel.Accounted)
      (fun accounted _ stepped => accounted.step (processStep_moved stepped))
    exact Kernel.Accounted.boot ..
  obtain ⟨current, isCurrent⟩ : ∃ current, final.currentPid = some current := by
    rcases begun with ⟨image, loaded, wellFormed⟩ | begun
    · obtain ⟨pid, isRunning, -⟩ := schedulable
      have runs := Kernel.processStatus_of_isRunning isRunning
      apply Option.ne_none_iff_exists'.mp
      intro noCurrent
      have stopped := (Sound.of_run loaded wellFormed run).table.idle noCurrent pid
      exact absurd (runs.symm.trans stopped) (by decide)
    · exact begun.current run
  exact accounted.fairlyScheduled isCurrent schedulable

/-- The root shell alone is scheduled at every tick. -/
theorem reachable_fairlyScheduled_rootShell :
    ∃ final, final.userProcess = some 1 ∧ FairlyScheduled final := by
  obtain ⟨target, launched, isUser⟩ := shellKernel_launch
  have run : Run processStep (Kernel.boot (filesysInit shellMemory 0x420000) zeroTables
      (fun _ => 0) (fun _ => 0) (fun _ => 0) (fun _ => 0) 0) [_] target :=
    .cons trivial launched (.nil target)
  have sound := Sound.of_run shellMemory_loaded shellImage_wellFormed run
  obtain ⟨isCurrent, isRunning⟩ := Kernel.userProcess_eq_some.mp isUser
  have schedulable : target.Schedulable 1 :=
    ⟨isRunning, sound.table.current_child isCurrent isRunning⟩
  refine ⟨target, isUser, reachable_fairlyScheduled run ?_ ⟨1, schedulable⟩⟩
  exact .inl ⟨shellImage, shellMemory_loaded, shellImage_wellFormed⟩

/-- An image with one entry, `"shell"`, and no inodes. -/
def brokenMemory : Memory :=
  fun address =>
    if address = 0x420000 then 1
    else if 0x420040 ≤ address then shellCommand.chars.getD (address - 0x420040) 0
    else 0

/-- The kernel that mounted it. -/
def brokenKernel : Kernel :=
  Kernel.boot (filesysInit brokenMemory 0x420000) zeroTables (fun _ => 0) (fun _ => 0)
    (fun _ => 0) (fun _ => 0) 0

/-- Before anything runs, a shell is asked for by Alt and F2.  With the magic number
on the stack its launch fails after slot 1 is claimed. -/
theorem brokenKernel_failedLaunch : ∃ pressed leaked,
    processStep brokenKernel (.key { esp := 0, ebp := 0 } (fun _ => 0) 0x38) =
      some (.keyed none, pressed) ∧
    processStep pressed
        (.key { esp := 0, ebp := 0 } (fun k => executableChecking.getD k 0) 0x3C) =
      some (.keyed (some .failed), leaked) ∧
    leaked.Schedulable 1 ∧ leaked.totalRunningProcess = 1 ∧ leaked.currentPid = none :=
  ⟨_, _, rfl, rfl, ⟨rfl, rfl⟩, rfl, rfl⟩

/-- The tick that follows takes the control block of no process. -/
theorem failedLaunch_notFair :
    ¬ ∀ (memory screen : Memory) (start : Nat) (paging : PageTables)
      (printBuffer argBuf fname : Nat → UInt8) (currentDirReadIndex : Int)
      (trace : List (ProcessEvent × ProcessReply)) (final : Kernel),
      Run processStep (Kernel.boot (filesysInit memory start) paging screen printBuffer argBuf
        fname currentDirReadIndex) trace final →
      (∃ pid, final.Schedulable pid) → FairlyScheduled final := by
  intro fair
  obtain ⟨pressed, leaked, alt, failed, schedulable, counted, noCurrent⟩ :=
    brokenKernel_failedLaunch
  have run : Run processStep brokenKernel [_, _] leaked :=
    .cons trivial alt (.cons trivial failed (.nil leaked))
  obtain ⟨states, ticked, -⟩ := fair brokenMemory (fun _ => 0) 0x420000 zeroTables (fun _ => 0)
    (fun _ => 0) (fun _ => 0) 0 _ leaked run ⟨1, schedulable⟩ [{ esp := 0, ebp := 0 }]
  have faults : pitHandler leaked { esp := 0, ebp := 0 } = none := by
    simp [pitHandler, counted, noCurrent]
  simp [ticks, faults] at ticked

end PonyOS.Process
