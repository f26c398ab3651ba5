import PonyOS.Terminal.Frame
import PonyOS.Terminal.Switching

/-!
# Typed lines on their way to a reader

Enter copies the line of the displayed terminal into its row of `print_buffer`
and raises a flag; `terminal_read` waits for the flag, copies the row out and
lowers the flag, with interrupts enabled throughout; `terminal_write` passes
through the same row.  The system here interleaves these steps with keys,
display switches and scheduler switches.  It keeps a history of the lines that
were submitted, of the copies that were made and of the reads that completed,
which no step looks at.
-/

namespace PonyOS.Terminal

open PonyOS.Lib.Transition
open PonyOS.Lib.Word
open PonyOS.Paging

universe u

/-! ## What a key does to the rows and the flags -/

/-- The line of a terminal as Enter hands it over, padded to a whole row. -/
def Keyboard.typedLine (keyboard : Keyboard) (terminalId : Nat) : Nat → UInt8 :=
  fun k => if k < 129 then keyboard.keyboardBuffer terminalId k else 0

theorem makeBreak_rows {σ : Type u} (ops : ScreenOps σ) (pidFree : Bool) (screen : σ)
    (keyboard : Keyboard) (c : Nat) :
    (makeBreak ops pidFree screen keyboard c).keyboard.printBuffer = keyboard.printBuffer ∧
      (makeBreak ops pidFree screen keyboard c).keyboard.terminalReadReady =
        keyboard.terminalReadReady := by
  unfold makeBreak
  split
  · exact ⟨rfl, rfl⟩
  · simp only
    split
    · exact ⟨rfl, rfl⟩
    · split
      · obtain ⟨second, third, changed⟩ :=
          altKey_keyboard ops pidFree screen (pressKey keyboard c) c
        rw [changed]
        exact ⟨rfl, rfl⟩
      · split
        · exact ⟨rfl, rfl⟩
        · exact ⟨rfl, rfl⟩

/-- Backspace leaves rows and flags alone. -/
theorem backspaceKey_rows {σ : Type u} (ops : ScreenOps σ) (result : KeyResult σ) (c : Nat) :
    (backspaceKey ops result c).keyboard.printBuffer = result.keyboard.printBuffer ∧
      (backspaceKey ops result c).keyboard.terminalReadReady =
        result.keyboard.terminalReadReady := by
  simp only [backspaceKey]
  split_ifs <;> exact ⟨rfl, rfl⟩

/-- A key other than Enter leaves rows and flags alone. -/
theorem scancodeProcessing_rows {σ : Type u} (ops : ScreenOps σ) (pidFree : Bool) (screen : σ)
    (keyboard : Keyboard) {c : UInt8} (other : c.toNat ≠ scancodeEnter) :
    let result := scancodeProcessing ops pidFree screen keyboard c
    result.keyboard.printBuffer = keyboard.printBuffer ∧
      result.keyboard.terminalReadReady = keyboard.terminalReadReady := by
  intro result
  have first := makeBreak_rows ops pidFree screen keyboard c.toNat
  have last := backspaceKey_rows ops
    (enterKey ops (makeBreak ops pidFree screen keyboard c.toNat) c.toNat) c.toNat
  rw [enterKey, if_neg other] at last
  have resultEq : result = backspaceKey ops
      (makeBreak ops pidFree screen keyboard c.toNat) c.toNat := by
    simp only [result, scancodeProcessing, enterKey, if_neg other]
  rw [resultEq]
  exact ⟨last.1.trans first.1, last.2.trans first.2⟩

/-- Enter fills the row of the terminal it finds displayed, raises its flag,
and leaves the other rows and flags alone. -/
theorem scancodeProcessing_enter {σ : Type u} (ops : ScreenOps σ) (pidFree : Bool) (screen : σ)
    (keyboard : Keyboard) {c : UInt8} (enter : c.toNat = scancodeEnter) :
    let result := scancodeProcessing ops pidFree screen keyboard c
    let before := makeBreak ops pidFree screen keyboard c.toNat
    let terminalId := ops.displayTerminal before.screen
    (∀ k, k < printLim → result.keyboard.printBuffer (printRow terminalId + k) =
        before.keyboard.typedLine terminalId k) ∧
      (∀ other k, other ≠ terminalId → k < printLim →
        result.keyboard.printBuffer (printRow other + k) =
          keyboard.printBuffer (printRow other + k)) ∧
      result.keyboard.terminalReadReady =
        Function.update keyboard.terminalReadReady terminalId true := by
  intro result before terminalId
  obtain ⟨sameRows, sameFlags⟩ := makeBreak_rows ops pidFree screen keyboard c.toNat
  obtain ⟨lastRows, lastFlags⟩ := backspaceKey_rows ops (enterKey ops before c.toNat) c.toNat
  have rows : result.keyboard.printBuffer = before.keyboard.submittedBuffer terminalId := by
    refine lastRows.trans ?_
    rw [enterKey, if_pos enter]
    rfl
  have flags : result.keyboard.terminalReadReady =
      Function.update before.keyboard.terminalReadReady terminalId true := by
    refine lastFlags.trans ?_
    rw [enterKey, if_pos enter]
    rfl
  refine ⟨?_, ?_, ?_⟩
  · intro k inRow
    rw [rows, Keyboard.submittedBuffer, if_pos (by omega), Keyboard.typedLine]
    by_cases inLine : k < 129
    · rw [if_pos (by omega), if_pos inLine, Nat.add_sub_cancel_left]
    · rw [if_neg (by omega), if_neg inLine]
  · intro other k distinct inRow
    have outside : ¬ (printRow terminalId ≤ printRow other + k ∧
        printRow other + k < printRow terminalId + printLim) := by
      unfold printRow printLim at *
      omega
    rw [rows, Keyboard.submittedBuffer, if_neg outside, sameRows]
  · rw [flags, sameFlags]

/-- The terminal that Enter submits is the displayed one. -/
theorem makeBreak_enter_display {console : Console} (coherent : console.Coherent)
    (pidFree : Bool) (keyboard : Keyboard) :
    (makeBreak consoleOps pidFree console keyboard scancodeEnter).screen.displayTerminal =
      console.displayTerminal := by
  rw [makeBreak, if_neg (by decide)]
  simp only
  rw [if_neg (fun clears => absurd clears.1 (by decide))]
  by_cases alt : (pressKey keyboard scancodeEnter).pressedKey scancodeLeftAlt = true
  · rw [if_pos alt, altKey, if_neg (by decide), if_neg (by decide), if_neg (by decide)]
  rw [if_neg alt]
  split
  · have put : consoleOps.putcScrollDisplay console = console.putcScrollDisplay := rfl
    simp only [put, coherent.putcScrollDisplay_eq]
    exact (console.paint_fields _ _).2.2
  · rfl

/-- No key changes the active terminal. -/
theorem scancodeProcessing_activeTerminal {console : Console} {keyboard : Keyboard}
    (driven : Driven console keyboard) (pidFree : Bool) (c : UInt8) :
    (scancodeProcessing consoleOps pidFree console keyboard c).screen.activeTerminal =
      console.activeTerminal := by
  have simulated := (scancodeProcessing_simulates driven pidFree c).screen
  have concrete := congrArg Reference.activeTerminal simulated
  have abstract : (scancodeProcessing referenceOps pidFree console.view keyboard
      c).screen.activeTerminal = console.activeTerminal := by
    have first : (makeBreak referenceOps pidFree console.view keyboard
        c.toNat).screen.activeTerminal = console.activeTerminal := by
      have change := makeBreak_screen referenceOps pidFree console.view keyboard c.toNat
      generalize (makeBreak referenceOps pidFree console.view keyboard c.toNat).screen = screen
        at change ⊢
      generalize switchOf keyboard c.toNat = switch at change
      cases change with
      | same => rfl
      | cleared => rfl
      | echoed c => rfl
      | shown terminalId => rfl
    rw [scancodeProcessing]
    generalize makeBreak referenceOps pidFree console.view keyboard c.toNat = before at first
    simp only [backspaceKey, enterKey]
    split_ifs <;> exact first
  rw [abstract] at concrete
  exact concrete.symm

/-! ## The system -/

/-- Where a process is in `terminal_read`. -/
inductive ReadPhase
  | idle
  | waiting (count : Int)
  | tested (count : Int)
  | copied (count : Int) (bytes : List UInt8)

/-- The process has passed the flag test and not yet cleared the flag. -/
def ReadPhase.pastTest : ReadPhase → Bool
  | .idle => false
  | .waiting _ => false
  | .tested _ => true
  | .copied _ _ => true

/-- A completed `terminal_read`, with the line most recently submitted on its
terminal when it completed. -/
structure Delivery where
  count : Int
  bytes : List UInt8
  latest : Nat → UInt8

/-- Terminals, processes inside `terminal_read`, and the history: how many
lines were submitted on each terminal, the last of them, the copies made (as
terminal and serial number of the line) and the completed reads. -/
structure LineSystem where
  terminals : Terminals
  current : Nat
  phase : Nat → ReadPhase
  submitted : Nat → Nat
  line : Nat → Nat → UInt8
  copyLog : List (Nat × Nat)
  completed : List Delivery

/-- Keys, switches, `terminal_write`, and the steps of `terminal_read`. -/
inductive LineEvent
  | key (pidFree : Bool) (c : UInt8)
  | setDisiplayTerminal (terminalId : Fin 3)
  | schedule (pid : Nat)
  | terminalWrite (buf : Nat → UInt8) (count : Int)
  | terminalRead (count : Int)
  | testFlag
  | copyOut
  | clearFlag

namespace LineSystem

/-- A keyboard interrupt; Enter adds to the history. -/
def key (system : LineSystem) (pidFree : Bool) (c : UInt8) : LineSystem :=
  let console := system.terminals.console
  let keyboard := system.terminals.keyboard
  let result := scancodeProcessing consoleOps pidFree console keyboard c
  let handled := { system with
    terminals := { console := result.screen, keyboard := result.keyboard } }
  if c.toNat = scancodeEnter then
    let before := makeBreak consoleOps pidFree console keyboard c.toNat
    let terminalId := console.displayTerminal
    { handled with
      submitted := Function.update system.submitted terminalId (system.submitted terminalId + 1)
      line := Function.update system.line terminalId (before.keyboard.typedLine terminalId) }
  else handled

/-- Advance the current process. -/
def enter (system : LineSystem) (next : ReadPhase) : LineSystem :=
  { system with phase := Function.update system.phase system.current next }

/-- One event.  `home` gives the terminal of each process; the scheduler makes
it active together with the process.  A negative count runs the copy off the
end of the mapped memory and stops the machine. -/
def step (home : Nat → Fin 3) : Step LineSystem LineEvent Unit
  | system, .key pidFree c => some ((), system.key pidFree c)
  | system, .setDisiplayTerminal terminalId =>
      some ((), { system with terminals := { system.terminals with
        console := system.terminals.console.setDisiplayTerminal terminalId } })
  | system, .schedule pid =>
      some ((), { system with
        current := pid
        terminals := { system.terminals with
          console := system.terminals.console.setActiveTerminal (home pid) } })
  | system, .terminalWrite buf count =>
      match system.phase system.current with
      | .idle => (system.terminals.terminalWrite buf count).map fun result =>
          ((), { system with terminals := result.2 })
      | _ => none
  | system, .terminalRead count =>
      match system.phase system.current with
      | .idle => some ((), system.enter (.waiting count))
      | _ => none
  | system, .testFlag =>
      match system.phase system.current with
      | .waiting count =>
          if system.terminals.lineReady then some ((), system.enter (.tested count))
          else some ((), system)
      | _ => none
  | system, .copyOut =>
      match system.phase system.current with
      | .tested count =>
          if count < 0 then none
          else
            let terminalId := system.terminals.console.activeTerminal
            some ((), { system.enter (.copied count (system.terminals.readLine count.toNat)) with
              copyLog := (terminalId, system.submitted terminalId) :: system.copyLog })
      | _ => none
  | system, .clearFlag =>
      match system.phase system.current with
      | .copied count bytes =>
          some ((), { system.enter .idle with
            terminals := system.terminals.clearReady
            completed :=
              { count := count
                bytes := bytes
                latest := system.line system.terminals.console.activeTerminal } ::
                system.completed })
      | _ => none

/-- The system after `paging_init` and `keyboard_init`, with every process
outside `terminal_read` and process `pid` current. -/
def boot (home : Nat → Fin 3) (pid : Nat) (paging : PageTables) (memory : Memory)
    (printBuffer : Nat → UInt8) : LineSystem :=
  { terminals :=
      { console := (Console.boot paging memory).setActiveTerminal (home pid)
        keyboard := Keyboard.keyboardInit printBuffer }
    current := pid
    phase := fun _ => .idle
    submitted := fun _ => 0
    line := fun _ _ => 0
    copyLog := []
    completed := [] }

/-! ## Property and condition -/

/-- The flag of a terminal. -/
def ready (system : LineSystem) (terminalId : Nat) : Bool :=
  system.terminals.keyboard.terminalReadReady terminalId

/-- Byte `k` of the row of a terminal. -/
def rowByte (system : LineSystem) (terminalId k : Nat) : UInt8 :=
  system.terminals.keyboard.printBuffer (printRow terminalId + k)

/-- The last line of a terminal has been submitted and not yet copied out. -/
def Pending (system : LineSystem) (terminalId : Nat) : Prop :=
  0 < system.submitted terminalId ∧
    (terminalId, system.submitted terminalId) ∉ system.copyLog

/-- Lines are delivered intact and once. -/
structure Delivered (system : LineSystem) : Prop where
  intact : ∀ delivery ∈ system.completed, ∀ k, k < delivery.count.toNat → k < printLim →
    delivery.bytes[k]? = some (delivery.latest k)
  once : system.copyLog.Nodup
  pending : ∀ terminalId, system.Pending terminalId →
    system.ready terminalId = true ∧
      ∀ k, k < printLim → system.rowByte terminalId k = system.line terminalId k

/-- Some reader of the terminal is between its copy and its flag clear. -/
def CopiedOn (home : Nat → Fin 3) (system : LineSystem) (terminalId : Nat) : Prop :=
  ∃ pid count bytes, (home pid).val = terminalId ∧ system.phase pid = .copied count bytes

/-- The row of a terminal holds no line that is still to be copied. -/
def RowFree (home : Nat → Fin 3) (system : LineSystem) (terminalId : Nat) : Prop :=
  system.ready terminalId = false ∨ CopiedOn home system terminalId

/-- The condition on a step: output goes through a row only while the row is
free (and through the next row as well, when the terminating zero falls
there), Enter does not hit a reader that has copied and not yet cleared, and
no reader passes the test while another one of its terminal is past it. -/
def Quiet (home : Nat → Fin 3) (system : LineSystem) : LineEvent → Prop
  | .key _ c => c.toNat = scancodeEnter →
      ¬ CopiedOn home system system.terminals.console.displayTerminal
  | .terminalWrite _ count =>
      let terminalId := system.terminals.console.activeTerminal
      RowFree home system terminalId ∧
        ((printLim : Int) ≤ count → RowFree home system (terminalId + 1))
  | .testFlag => system.terminals.lineReady = true → ∀ pid,
      (home pid).val = system.terminals.console.activeTerminal →
        (system.phase pid).pastTest = false
  | _ => True

end LineSystem

end PonyOS.Terminal
