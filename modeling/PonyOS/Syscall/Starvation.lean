import PonyOS.Process.Delay
import PonyOS.Syscall.Arguments
import PonyOS.Syscall.Listing
import PonyOS.Syscall.RootHalt

/-!
# No process starves

Between two ticks anything may happen: the current process makes system calls,
starts children, returns to its parent or halts; keys are pressed, shells are
launched, the clock interrupts.  A schedulable process is still reached after a
bounded number of ticks, whatever the order of all this.
-/

namespace PonyOS.Syscall

open PonyOS.FileSystem
open PonyOS.Lib.Ranking
open PonyOS.Lib.RoundRobin
open PonyOS.Lib.Transition
open PonyOS.Lib.Word
open PonyOS.Paging
open PonyOS.Process
open PonyOS.Terminal

/-- The timer interrupt. -/
def isTick : SystemEvent → Bool
  | .process (.tick _) => true
  | _ => false

/-- The timer interrupts of a trace. -/
def tickCount (trace : List (SystemEvent × SystemReply)) : Nat :=
  counted isTick trace

variable {kernel target : Kernel} {event : SystemEvent} {reply : SystemReply}

/-- Every event of the system keeps a kernel sound. -/
theorem sound_systemStep (sound : Sound kernel)
    (stepped : systemStep kernel event = some (reply, target)) : Sound target := by
  cases systemStep_cases stepped with
  | process event answer moved => exact sound.step (processStep_moved moved)
  | call pid memory asked answer isUser called =>
      rcases systemCall_eq_some called with ⟨tried, stored, attempted, storedEq, -, rfl⟩
      have fs := ((SameListing.finish stored pid asked tried).fs.trans
        (SameListing.userStores storedEq).fs).trans (attempt_listing attempted).1
      constructor
      · rw [(KeepsProcesses.systemCall called).table]
        exact sound.table
      · rw [fs]
        exact sound.inodes
  | rtc targetEq =>
      subst targetEq
      exact ⟨sound.table, sound.inodes⟩

/-- What holds of a kernel while a process waits. -/
structure Waits (kernel : Kernel) (waiting : Nat) : Prop where
  sound : Sound kernel
  accounted : kernel.Accounted
  ready : kernel.table.Ready waiting

theorem Kernel.Schedulable.ready {pid : Nat} (schedulable : kernel.Schedulable pid) :
    kernel.table.Ready pid :=
  ⟨Kernel.processStatus_of_isRunning schedulable.1, schedulable.2⟩

/-- Pid zero never runs, so being ready is being schedulable. -/
theorem Waits.schedulable_eq {waiting : Nat} (waits : Waits kernel waiting) :
    kernel.Schedulable = kernel.table.Ready := by
  funext pid
  apply propext
  constructor
  · exact Kernel.Schedulable.ready
  · rintro ⟨runs, childless⟩
    have positive := (waits.sound.table.range pid runs).1
    refine ⟨?_, childless⟩
    rw [Kernel.isRunning, if_neg (by omega)]
    exact runs

/-- A tick reaches the waiting process or lowers its delay. -/
theorem Waits.tick {waiting : Nat} (waits : Waits kernel waiting)
    (notCurrent : kernel.currentPid ≠ some waiting) {registers : Registers}
    {loaded : Option Registers} (ticked : pitHandler kernel registers = some (loaded, target)) :
    target.table.Ready waiting ∧ (target.currentPid = some waiting ∨
      target.table.delay waiting + 1 ≤ kernel.table.delay waiting) := by
  have schedulable : kernel.Schedulable waiting := by
    rw [waits.schedulable_eq]
    exact waits.ready
  obtain ⟨current, isCurrent⟩ : ∃ current, kernel.currentPid = some current := by
    apply Option.ne_none_iff_exists'.mp
    intro noCurrent
    have stopped := waits.sound.table.idle noCurrent waiting
    exact absurd (waits.ready.1.symm.trans stopped) (by decide)
  have currentLt : current < 8 := (waits.accounted.current current isCurrent).1
  have position : kernel.currentPid = some (current % maxPid) := by
    rw [Nat.mod_eq_of_lt (show current < maxPid from currentLt)]
    exact isCurrent
  rcases waits.accounted.tick position ⟨waiting, schedulable⟩ registers with
    ⟨answer, next, later, tickedEq, first, entered, -⟩
  cases ticked.symm.trans tickedEq
  -- Whether or not the tick switches, only the current process changes.
  have changed : target.table = { kernel.table with current := some (later % maxPid) } := by
    rcases pitHandler_cases ticked with ⟨-, rfl⟩ | ⟨previous, pid, -, -, -, -, targetEq, -⟩
    · rw [← entered]
      rfl
    · have table := kernel.switchProcess_table previous pid registers
      rw [← targetEq] at table
      have same : some pid = some (later % maxPid) :=
        (congrArg ProcessTable.current table).symm.trans entered
      rw [table, Option.some.inj same]
      rfl
  rw [waits.schedulable_eq] at first
  refine ⟨?_, ?_⟩
  · rw [changed]
    exact waits.ready
  · by_cases reached : later % maxPid = waiting
    · exact .inl (entered.trans (congrArg some reached))
    · refine .inr ?_
      have notHere : current % 8 ≠ waiting := fun same =>
        notCurrent (position.trans (congrArg some same))
      rw [changed]
      exact ProcessTable.delay_switch first waits.ready
        (waits.sound.table.range waiting waits.ready.1).2 position notHere reached rfl rfl rfl rfl

/-- No event raises the delay of a waiting process and a tick lowers it, until
the process is current. -/
theorem Waits.progress {waiting : Nat} (waits : Waits kernel waiting)
    (notCurrent : ¬ kernel.currentPid = some waiting)
    (stepped : systemStep kernel event = some (reply, target)) :
    Waits target waiting ∧ (target.currentPid = some waiting ∨
      target.table.delay waiting + (if isTick event then 1 else 0) ≤
        kernel.table.delay waiting) := by
  have sound := sound_systemStep waits.sound stepped
  have accounted := accounted_systemStep waits.accounted stepped
  cases systemStep_cases stepped with
  | process event answer moved =>
      have change := (processStep_moved moved).change waits.sound
      have between : (∀ loaded, answer ≠ .ticked loaded) → target.table.Ready waiting ∧
          target.table.delay waiting ≤ kernel.table.delay waiting := fun notTick =>
        waits.sound.table.delay_change change notTick waits.ready notCurrent
      cases processStep_moved moved with
      | ticked registers loaded ended =>
          rcases waits.tick notCurrent ended with ⟨ready, outcome⟩
          exact ⟨⟨sound, accounted, ready⟩, outcome⟩
      | launched registers tempBuf outcome noCurrent executed =>
          rcases between (by simp) with ⟨ready, less⟩
          exact ⟨⟨sound, accounted, ready⟩, .inr less⟩
      | executed caller registers tempBuf command outcome isUser executed =>
          rcases between (by simp) with ⟨ready, less⟩
          exact ⟨⟨sound, accounted, ready⟩, .inr less⟩
      | halted caller tempBuf status outcome isUser ended =>
          rcases between (by simp) with ⟨ready, less⟩
          exact ⟨⟨sound, accounted, ready⟩, .inr less⟩
      | cleared isClearing targetEq =>
          rcases between (by simp) with ⟨ready, less⟩
          exact ⟨⟨sound, accounted, ready⟩, .inr less⟩
      | keyed registers tempBuf c outcome ended =>
          rcases between (by simp) with ⟨ready, less⟩
          exact ⟨⟨sound, accounted, ready⟩, .inr less⟩
  | call pid memory asked answer isUser called =>
      have table := (KeepsProcesses.systemCall called).table
      refine ⟨⟨sound, accounted, ?_⟩, .inr ?_⟩
      · rw [table]
        exact waits.ready
      · rw [table]
        exact Nat.le_refl _
  | rtc targetEq =>
      subst targetEq
      exact ⟨⟨sound, accounted, waits.ready⟩, .inr (Nat.le_refl _)⟩

/-- A schedulable process of a reachable kernel is in user mode before the
fifteenth tick, in whatever order the ticks, the system calls of the other
processes, the keys and the clock interrupts come, as long as the calls keep to
user memory. -/
theorem reachable_notStarved {memory screen : Memory} {start : Nat} {image : Image}
    {paging : PageTables} {printBuffer argBuf fname : Nat → UInt8} {currentDirReadIndex : Int}
    {trace later : List (SystemEvent × SystemReply)} {final : Kernel} {waiting : Nat}
    (loaded : Loaded memory start image) (wellFormed : image.WellFormed)
    (run : GuardedRun systemStep userBuffers (Kernel.boot (filesysInit memory start) paging
      screen printBuffer argBuf fname currentDirReadIndex) trace kernel)
    (schedulable : kernel.Schedulable waiting)
    (further : GuardedRun systemStep userBuffers kernel later final)
    (ticks : 14 < tickCount later) :
    ∃ before rest middle, later = before ++ rest ∧
      GuardedRun systemStep userBuffers kernel before middle ∧
      middle.userProcess = some waiting := by
  have sound : Sound kernel := by
    apply run.invariant (P := Sound) (fun sound _ stepped => sound_systemStep sound stepped)
    exact Sound.boot (entriesHaveInodes_of_wellFormed loaded wellFormed) ..
  have accounted : kernel.Accounted := by
    apply run.invariant (P := Kernel.Accounted)
      (fun accounted _ stepped => accounted_systemStep accounted stepped)
    exact Kernel.Accounted.boot ..
  have waits : Waits kernel waiting := ⟨sound, accounted, Kernel.Schedulable.ready schedulable⟩
  have outcome := reaches_or_pays (fun state => Waits state waiting)
    (fun state => state.currentPid = some waiting) (fun state => state.table.delay waiting) isTick
    (fun waits notCurrent _ stepped => waits.progress notCurrent stepped) further waits
  rcases outcome with ⟨before, rest, middle, split, ran, waited, isCurrent⟩ | paid
  · exact ⟨before, rest, middle, split, ran,
      Kernel.userProcess_eq_some.mpr ⟨isCurrent, waited.ready.1⟩⟩
  · have bound := sound.table.delay_le_two_rounds waits.ready
    unfold tickCount at ticks
    omega

/-- Ticks never fail, so there is a run of any number of them. -/
theorem Sound.exists_ticks (sound : Sound kernel) (count : Nat) :
    ∃ trace final, GuardedRun systemStep userBuffers kernel trace final ∧
      tickCount trace = count := by
  induction count generalizing kernel with
  | zero => exact ⟨[], kernel, .nil kernel, rfl⟩
  | succ count ih =>
      rcases Option.isSome_iff_exists.mp (sound.tick_isSome { esp := 0, ebp := 0 }) with
        ⟨⟨loaded, next⟩, ticked⟩
      have stepped : systemStep kernel (.process (.tick { esp := 0, ebp := 0 })) =
          some (.process kernel.userProcess (.ticked loaded), next) := by
        simp only [systemStep, processStep, ticked, Option.map_some]
      rcases ih (sound_systemStep sound stepped) with ⟨trace, final, run, counted⟩
      refine ⟨_ :: trace, final, .cons (by trivial) stepped run, ?_⟩
      unfold tickCount Lib.Ranking.counted at counted ⊢
      rw [List.countP_cons_of_pos rfl, counted]

/-- The first shell comes back after the second one was launched over it. -/
theorem reachable_notStarved_firstShell : ∃ kernel before middle,
    kernel.userProcess = some 2 ∧ kernel.Schedulable 1 ∧
      GuardedRun systemStep userBuffers kernel before middle ∧
      middle.userProcess = some 1 := by
  obtain ⟨first, second, third, launch, alt, f2, isUser, waits⟩ :
      ∃ first second third,
        systemStep shellKernel (.process (.bootLaunch { esp := 0, ebp := 0 } fun _ => 0)) =
          some (.process none (.launched (.started 1 0)), first) ∧
        systemStep first (keyEvent 0x38) = some (.process (some 1) (.keyed none), second) ∧
        systemStep second (keyEvent 0x3C) =
          some (.process (some 1) (.keyed (some (.started 2 0))), third) ∧
        third.userProcess = some 2 ∧ third.Schedulable 1 :=
    ⟨_, _, _, rfl, rfl, rfl, rfl, ⟨rfl, rfl⟩⟩
  have run : GuardedRun systemStep userBuffers shellKernel [_, _, _] third :=
    .cons (by trivial) launch (.cons (by trivial) alt (.cons (by trivial) f2 (.nil third)))
  have sound : Sound third := by
    apply run.invariant (P := Sound) (fun sound _ stepped => sound_systemStep sound stepped)
    exact Sound.boot (entriesHaveInodes_of_wellFormed shellMemory_loaded shellImage_wellFormed) ..
  rcases Sound.exists_ticks sound 15 with ⟨later, final, further, ticks⟩
  rcases reachable_notStarved shellMemory_loaded shellImage_wellFormed run waits further
    (by omega) with ⟨before, rest, middle, -, ran, reached⟩
  exact ⟨third, before, middle, isUser, waits, ran, reached⟩

end PonyOS.Syscall
