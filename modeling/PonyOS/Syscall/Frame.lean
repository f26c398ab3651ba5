import PonyOS.Process.Invariant
import PonyOS.Syscall.Effects

/-!
# What calls leave alone

A call changes descriptors, the terminals and a few flags.  Processes and their
arguments are the business of the process events: no call shows in the process
table or in the argument buffers.
-/

namespace PonyOS.Syscall

open PonyOS.FileSystem
open PonyOS.Lib.Word
open PonyOS.Process
open PonyOS.Terminal

/-- The process table and the arguments of the processes are the same. -/
structure KeepsProcesses (kernel target : Kernel) : Prop where
  table : target.table = kernel.table
  argBuf : target.argBuf = kernel.argBuf
  argAvailable : target.argAvailable = kernel.argAvailable

theorem KeepsProcesses.refl (kernel : Kernel) : KeepsProcesses kernel kernel :=
  ⟨rfl, rfl, rfl⟩

theorem KeepsProcesses.trans {kernel middle target : Kernel} (first : KeepsProcesses kernel middle)
    (second : KeepsProcesses middle target) : KeepsProcesses kernel target :=
  ⟨second.table.trans first.table, second.argBuf.trans first.argBuf,
    second.argAvailable.trans first.argAvailable⟩

/-- What the first half of a call can do to the terminals. -/
inductive TerminalsAfter (terminals : Terminals) : Terminals → Prop
  | same : TerminalsAfter terminals terminals
  | read : TerminalsAfter terminals terminals.clearReady
  | write (s printBuffer : Nat → UInt8) (len : Int) :
      TerminalsAfter terminals
        { console := terminals.console.putsScroll s len
          keyboard := { terminals.keyboard with printBuffer := printBuffer } }

theorem KeepsProcesses.setDescriptor (kernel : Kernel) (slot fd : Nat) (desc : FileDesc) :
    KeepsProcesses kernel (setDescriptor kernel slot fd desc) :=
  ⟨Kernel.setPcb_table_of_links kernel rfl, rfl, rfl⟩

theorem read_terminals {kernel : Kernel} {pid : Nat} {memory : Memory} {fd : Int} {buf : Nat}
    {nbytes : Int} {tried : Attempt}
    (attempted : read kernel pid memory fd buf nbytes = some tried) :
    KeepsProcesses kernel tried.kernel ∧
      TerminalsAfter kernel.terminals tried.kernel.terminals := by
  rcases read_cases attempted with ⟨-, rfl⟩ | ⟨-, -, called⟩
  · exact ⟨.refl kernel, .same⟩
  · cases callRead_cases called with
    | terminal isTerminal ready => exact ⟨⟨rfl, rfl, rfl⟩, .read⟩
    | rtc isRtc ticked => exact ⟨⟨rfl, rfl, rfl⟩, .same⟩
    | file isFile => exact ⟨.refl kernel, .same⟩
    | directory isDirectory =>
        unfold dirRead
        split
        · exact ⟨.refl kernel, .same⟩
        · split
          · exact ⟨.refl kernel, .same⟩
          · exact ⟨⟨rfl, rfl, rfl⟩, .same⟩

theorem terminalWrite_terminals {terminals target : Terminals} {buf : Nat → UInt8}
    {count value : Int} (written : terminals.terminalWrite buf count = some (value, target)) :
    TerminalsAfter terminals target := by
  unfold Terminals.terminalWrite at written
  simp only at written
  generalize (if count < printLim then count else (printLim : Int)) = lim at written
  split at written
  · contradiction
  · simp only [Option.some.injEq, Prod.mk.injEq] at written
    rw [← written.2]
    exact .write ..

theorem write_terminals {kernel : Kernel} {pid : Nat} {memory : Memory} {fd : Int} {buf : Nat}
    {nbytes : Int} {tried : Attempt}
    (attempted : write kernel pid memory fd buf nbytes = some tried) :
    KeepsProcesses kernel tried.kernel ∧
      TerminalsAfter kernel.terminals tried.kernel.terminals := by
  rcases write_cases attempted with ⟨-, rfl⟩ | ⟨-, -, called⟩
  · exact ⟨.refl kernel, .same⟩
  · cases callWrite_cases called with
    | terminal value terminals isTerminal written =>
        have after := terminalWrite_terminals written
        refine ⟨⟨?_, rfl, rfl⟩, after⟩
        cases after <;> rfl
    | rtc isRtc => exact ⟨.refl kernel, .same⟩
    | file isFile => exact ⟨.refl kernel, .same⟩
    | directory isDirectory => exact ⟨.refl kernel, .same⟩

/-- Calls leave the process table alone and touch the terminals in three ways. -/
theorem attempt_terminals {kernel : Kernel} {pid : Nat} {memory : Memory} {call : Call}
    {tried : Attempt} (attempted : attempt kernel pid memory call = some tried) :
    KeepsProcesses kernel tried.kernel ∧
      TerminalsAfter kernel.terminals tried.kernel.terminals := by
  cases call with
  | read fd buf nbytes => exact read_terminals attempted
  | write fd buf nbytes => exact write_terminals attempted
  | openFile filename =>
      cases attempted
      rcases openFile_cases kernel pid filename with ⟨-, refusedEq⟩ | ⟨temp, i, -, -, openedEq⟩
      · rw [refusedEq]
        exact ⟨.refl kernel, .same⟩
      · rw [openedEq]
        exact ⟨⟨Kernel.setPcb_table_of_links kernel rfl, rfl, rfl⟩, .same⟩
  | close fd =>
      cases attempted
      unfold close
      simp only
      split
      · exact ⟨.refl kernel, .same⟩
      · exact ⟨.setDescriptor kernel pid fd.toNat _, .same⟩
  | getargs buf nbytes =>
      cases attempted
      unfold getargs
      split
      · exact ⟨.refl kernel, .same⟩
      · split
        · exact ⟨.refl kernel, .same⟩
        · exact ⟨.refl kernel, .same⟩
  | vidmap screenstart =>
      cases attempted
      unfold vidmap
      split
      · exact ⟨.refl kernel, .same⟩
      · split
        · exact ⟨.refl kernel, .same⟩
        · exact ⟨.refl kernel, .same⟩

/-! ## Stores and whole calls -/

namespace KeepsProcesses

variable {kernel target : Kernel}

theorem userStore {store : Store} (stored : Syscall.userStore kernel store = some target) :
    KeepsProcesses kernel target := by
  unfold Syscall.userStore at stored
  split at stored
  · cases stored
    exact .refl kernel
  · split at stored
    · cases stored
      exact ⟨rfl, rfl, rfl⟩
    · split at stored
      · contradiction
      · obtain ⟨desc, -, rfl⟩ := Option.map_eq_some_iff.mp stored
        exact .setDescriptor kernel _ _ desc

theorem userStores {stores : List Store}
    (stored : Syscall.userStores kernel stores = some target) : KeepsProcesses kernel target := by
  induction stores generalizing kernel with
  | nil =>
      cases stored
      exact .refl _
  | cons store rest ih =>
      obtain ⟨middle, first, later⟩ := Option.bind_eq_some_iff.mp stored
      exact (userStore first).trans (ih later)

theorem finish (kernel : Kernel) (pid : Nat) (call : Call) (tried : Attempt) :
    KeepsProcesses kernel (finish kernel pid call tried) := by
  unfold Syscall.finish
  split
  · unfold advance
    split
    · exact .refl kernel
    · exact .setDescriptor kernel _ _ _
  · exact .refl kernel

/-- No call shows in the process table or in the arguments. -/
theorem systemCall {pid : Nat} {memory : Memory} {call : Call} {reply : CallReply}
    (called : Syscall.systemCall kernel pid memory call = some (reply, target)) :
    KeepsProcesses kernel target := by
  obtain ⟨tried, stored, attempted, storedEq, -, rfl⟩ := systemCall_eq_some called
  have first := (attempt_terminals attempted).1
  exact (first.trans (userStores storedEq)).trans (finish stored pid call tried)

end KeepsProcesses

end PonyOS.Syscall
