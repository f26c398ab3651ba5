import PonyOS.Process.Provenance

/-!
# The result of `execute`

A process that `execute` started ends in `halt`, which leaves through the frame
of that call: it loads the registers the call had saved and puts a result in
`eax`.  The result is the constant `0`; the status that the process passed is
never read, although the shell tells results apart.
-/

namespace PonyOS.Process

open PonyOS.FileSystem
open PonyOS.Lib.Transition
open PonyOS.Lib.Word
open PonyOS.Paging
open PonyOS.Terminal

/-- The halting process returns its status into the call that started it, and
after that no call that started it is outstanding. -/
def ReturnsStatus (source : Kernel) (trace : List (ProcessEvent × ProcessReply)) (kernel : Kernel)
    (pid caller : Nat) (registers : Registers) (tempBuf : Nat → UInt8) (status : Int) : Prop :=
  ∃ target, processStep kernel (.halt tempBuf status) =
      some (.halted (.returned status registers), target) ∧
    target.currentPid = some caller ∧
    ∀ other saved, ¬ CreatedBy source
      (trace ++ [(.halt tempBuf status, .halted (.returned status registers))]) target pid
      other saved

/-- What `halt` does for a process that `execute` started. -/
theorem halt_of_origin {kernel : Kernel} {pid caller terminal : Nat} {registers : Registers}
    (isUser : kernel.userProcess = some pid)
    (origin : (kernel.pcb pid).origin =
      { parent := some caller, terminal := terminal, isTerminal := 0, registers := registers })
    (notLast : kernel.totalRunningProcess ≠ 1) (tempBuf : Nat → UInt8) (status : Int) :
    processStep kernel (.halt tempBuf status) = some (.halted (.returned 0 registers),
      (kernel.stopProcess (kernel.pcb pid).pid).returnToParent caller) := by
  have isCurrent := (Kernel.userProcess_eq_some.mp isUser).1
  have isChild : (kernel.pcb pid).isTerminal = 0 := congrArg Origin.isTerminal origin
  have parent : (kernel.pcb pid).parent = some caller := congrArg Origin.parent origin
  have saved : (kernel.pcb pid).parentSaved = registers := congrArg Origin.registers origin
  simp only [processStep, isUser, halt, isCurrent, notLast, if_false, isChild, ne_eq,
    not_true_eq_false, parent, Option.map_some, ← saved]
  rfl

/-- The status is returned into the call exactly when it is `0` and another
process runs; on a well-formed image the caller of the call always does. -/
theorem exitStatus_returned_iff {memory screen : Memory} {start : Nat} {paging : PageTables}
    {printBuffer argBuf fname : Nat → UInt8} {currentDirReadIndex : Int}
    {trace : List (ProcessEvent × ProcessReply)} {kernel : Kernel} {pid caller : Nat}
    {registers : Registers}
    (run : Run processStep (Kernel.boot (filesysInit memory start) paging screen printBuffer
      argBuf fname currentDirReadIndex) trace kernel)
    (created : CreatedBy (Kernel.boot (filesysInit memory start) paging screen printBuffer argBuf
      fname currentDirReadIndex) trace kernel pid caller registers)
    (isUser : kernel.userProcess = some pid) (tempBuf : Nat → UInt8) (status : Int) :
    (ReturnsStatus (Kernel.boot (filesysInit memory start) paging screen printBuffer argBuf fname
        currentDirReadIndex) trace kernel pid caller registers tempBuf status ↔
      status = 0 ∧ kernel.totalRunningProcess ≠ 1) ∧
      ((∃ image : Image, Loaded memory start image ∧ image.WellFormed) →
        kernel.totalRunningProcess ≠ 1) := by
  have booted := Kernel.Accounted.boot (filesysInit memory start) paging screen printBuffer argBuf
    fname currentDirReadIndex
  have accounted : kernel.Accounted := run.invariant (P := Kernel.Accounted)
    (fun accounted _ stepped => accounted.step (processStep_moved stepped)) booted
  obtain ⟨isRunning, terminal, origin⟩ := created.origin booted
  have isCurrent := (Kernel.userProcess_eq_some.mp isUser).1
  have pidField : (kernel.pcb pid).pid = pid := (accounted.running pid isRunning).2
  have parentEq : (kernel.pcb pid).parent = some caller := congrArg Origin.parent origin
  refine ⟨⟨?_, ?_⟩, ?_⟩
  · rintro ⟨target, stepped, -⟩
    cases processStep_moved stepped with
    | halted caller' _ _ _ isUser' ended =>
        rcases halt_cases isCurrent ended with
          ⟨-, entry, restarted, -⟩ | ⟨-, -, spinning, -⟩ | ⟨notLast, -, parent, -, returned, -⟩
        · cases restarted
        · cases spinning
        · cases returned
          exact ⟨rfl, notLast⟩
  · rintro ⟨rfl, notLast⟩
    have stepped := halt_of_origin isUser origin notLast tempBuf 0
    refine ⟨_, stepped, congrArg some (accounted.parent pid caller parentEq).2, ?_⟩
    intro other saved again
    have stillRuns := (again.origin booted).1
    have stopped : ((kernel.stopProcess (kernel.pcb pid).pid).returnToParent
        caller).processStatus pid = false := by
      rw [pidField]
      exact Function.update_self pid false kernel.processStatus
    exact absurd (stillRuns.symm.trans stopped) (by decide)
  · rintro ⟨image, loaded, wellFormed⟩ last
    have root := (Sound.of_run loaded wellFormed run).last_isRoot isRunning last
    have isChild : (kernel.pcb pid).isTerminal = 0 := congrArg Origin.isTerminal origin
    exact absurd (root.symm.trans isChild) (by decide)

/-- The status `0` of a second shell is returned to the root shell. -/
theorem exitStatus_returned_zero : ∃ trace kernel,
    ReturnsStatus shellKernel trace kernel 2 1 { esp := 64, ebp := 96 } (fun _ => 0) 0 := by
  obtain ⟨trace, second, third, run, created, isUser, two, -⟩ := shellKernel_nested_created
  have returned := exitStatus_returned_iff run created isUser (fun _ => 0) 0
  refine ⟨trace, second, returned.1.mpr ⟨rfl, ?_⟩⟩
  rw [two]
  decide

/-- The status `7` is not. -/
theorem exitStatus_lost :
    ¬ ∀ (trace : List (ProcessEvent × ProcessReply)) (kernel : Kernel) (pid caller : Nat)
      (registers : Registers) (tempBuf : Nat → UInt8) (status : Int),
      Run processStep shellKernel trace kernel →
        CreatedBy shellKernel trace kernel pid caller registers →
        kernel.userProcess = some pid → 0 ≤ status ∧ status ≤ 255 →
        ReturnsStatus shellKernel trace kernel pid caller registers tempBuf status := by
  intro propagates
  obtain ⟨trace, second, third, run, created, isUser, -, halted⟩ := shellKernel_nested_created
  obtain ⟨target, stepped, -⟩ :=
    propagates trace second 2 1 _ (fun _ => 0) 7 run created isUser (by decide)
  simp only [processStep, isUser, halted, Option.map_some] at stepped
  cases stepped

end PonyOS.Process
