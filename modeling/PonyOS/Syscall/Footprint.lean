import PonyOS.Syscall.Directory
import PonyOS.Terminal.Writing

/-!
# What system calls read of memory

A write copies its text, or one word for the clock.  A read from a terminal
measures its buffer with `strlen` once it is filled, and may so run on into what
lies behind it; a directory read does too, but ends at the zero that it has just
stored.  No other call reads through the pointer that it is given: the names and
commands of `open` and `execute` are part of the event.
-/

namespace PonyOS.Syscall

open PonyOS.FileSystem
open PonyOS.Lib.Word
open PonyOS.Process
open PonyOS.Terminal

/-- The pointer that a call reads through. -/
def Call.source : Call → Nat
  | .read _ buf _ => buf
  | .write _ buf _ => buf
  | _ => 0

/-- Bytes that a write through a descriptor reads. -/
def writeExtent (desc : FileDesc) (count : Int) : Nat :=
  match desc.write with
  | .terminalWriteWrapper => (writeLim count).toNat
  | .rtcWriteWrapper => 4
  | _ => 0

/-- The string that a terminal read measures. -/
def measured (kernel : Kernel) (memory : Memory) (buf count : Nat) (i : Nat) : UInt8 :=
  load (memoryAfter memory (storesAt buf (kernel.terminals.readLine count))) (buf + i)

/-- Bytes that a read through a descriptor looks at: a string and its end. -/
def readExtent (kernel : Kernel) (memory : Memory) (desc : FileDesc) (buf count : Nat) : Nat :=
  match desc.read with
  | .terminalReadWrapper => strlen (measured kernel memory buf count) addressSpace + 1
  | _ => 0

/-- Bytes that a call by a process reads. -/
def extent (kernel : Kernel) (pid : Nat) (memory : Memory) : Call → Nat
  | .read fd buf nbytes =>
      if fd ≥ fdtSize ∨ fd < 0 ∨ fd = 1 then 0
      else if ((kernel.pcb pid).fileArray fd.toNat).flags = 0 then 0
      else readExtent kernel memory ((kernel.pcb pid).fileArray fd.toNat) buf (uint32 nbytes)
  | .write fd _ nbytes =>
      if fd ≥ fdtSize ∨ fd < 0 ∨ fd = 0 then 0
      else if ((kernel.pcb pid).fileArray fd.toNat).flags = 0 then 0
      else writeExtent ((kernel.pcb pid).fileArray fd.toNat) nbytes
  | _ => 0

/-! ## Memories that agree there -/

/-- A string that agrees up to its end has the same length. -/
theorem strlen_eq_of_extent {first second : Nat → UInt8} {bound : Nat}
    (same : ∀ k, k < strlen first bound + 1 → first k = second k) :
    strlen second bound = strlen first bound := by
  by_cases ends : strlen first bound < bound
  · exact (strlen_congr bound same ⟨_, Nat.lt_succ_self _, strlen_zero ends⟩).1.symm
  · apply (strlen_ext _).symm
    intro k inside
    exact same k (by omega)

theorem memoryAfter_congr {memory other : Memory} {address : Nat} (stores : List Store)
    (same : memory address = other address) :
    memoryAfter memory stores address = memoryAfter other stores address := by
  unfold memoryAfter
  induction stores generalizing memory other with
  | nil => exact same
  | cons store rest ih =>
      apply ih
      simp only
      by_cases here : address = store.address
      · rw [here, Function.update_self, Function.update_self]
      · rw [Function.update_of_ne here, Function.update_of_ne here, same]

section Calls

variable {kernel : Kernel} {memory other : Memory} {desc : FileDesc} {buf : Nat}

/-- A terminal read asks for nothing of memory but the string. -/
theorem terminalRead_congr {count : Nat}
    (same : ∀ k, k < strlen (measured kernel memory buf count) addressSpace + 1 →
      load memory (buf + k) = load other (buf + k)) :
    terminalRead kernel other buf count = terminalRead kernel memory buf count := by
  have text : ∀ k, k < strlen (measured kernel memory buf count) addressSpace + 1 →
      measured kernel memory buf count k = measured kernel other buf count k :=
    fun k inside => memoryAfter_congr _ (same k inside)
  have lengths := strlen_eq_of_extent text
  unfold measured at lengths
  simp only [terminalRead, strlenAt, lengths]

/-- What a directory read measures is the name alone. -/
theorem dirRead_congr : dirRead kernel other buf = dirRead kernel memory buf := by
  simp only [dirRead, Volume.readDentryByIndex]
  split
  · rfl
  · split
    · rfl
    · next temp found =>
        split at found
        · contradiction
        · cases found
          rw [strlenAt_name, strlenAt_name]
          · exact Nat.le_of_eq (bytesAt_length ..)
          · exact Nat.le_of_eq (bytesAt_length ..)

theorem callRead_congr {count : Nat}
    (same : ∀ k, k < readExtent kernel memory desc buf count →
      load memory (buf + k) = load other (buf + k)) :
    callRead kernel other desc buf count = callRead kernel memory desc buf count := by
  unfold callRead
  unfold readExtent at same
  cases handler : desc.read with
  | terminalReadWrapper =>
      rw [handler] at same
      exact terminalRead_congr same
  | dirReadWrapper => exact congrArg some dirRead_congr
  | _ => rfl

theorem rtcWrite_congr
    (same : ∀ k, k < 4 → load memory (buf + k) = load other (buf + k)) :
    rtcWrite other buf = rtcWrite memory buf := by
  have word : loadWord other buf = loadWord memory buf := by
    unfold loadWord
    rw [← same 1 (by decide), ← same 2 (by decide), ← same 3 (by decide)]
    rw [← Nat.add_zero buf, ← same 0 (by decide)]
  simp only [rtcWrite, word]

theorem callWrite_congr {count : Int}
    (same : ∀ k, k < writeExtent desc count → load memory (buf + k) = load other (buf + k)) :
    callWrite kernel other desc buf count = callWrite kernel memory desc buf count := by
  unfold callWrite
  unfold writeExtent at same
  cases handler : desc.write with
  | terminalWriteWrapper =>
      rw [handler] at same
      simp only [Terminals.terminalWrite_congr same]
  | rtcWriteWrapper =>
      rw [handler] at same
      simp only [rtcWrite_congr same]
  | _ => rfl

end Calls

/-- A call depends on memory only in the bytes that it reads. -/
theorem attempt_congr {kernel : Kernel} {pid : Nat} {memory other : Memory} {call : Call}
    (same : ∀ k, k < extent kernel pid memory call →
      load memory (call.source + k) = load other (call.source + k)) :
    attempt kernel pid other call = attempt kernel pid memory call := by
  cases call with
  | read fd buf nbytes =>
      simp only [attempt, read]
      simp only [extent] at same
      split
      · rfl
      · next valid =>
          split
          · rfl
          · next isOpen =>
              rw [if_neg valid, if_neg isOpen] at same
              exact callRead_congr same
  | write fd buf nbytes =>
      simp only [attempt, write]
      simp only [extent] at same
      split
      · rfl
      · next valid =>
          split
          · rfl
          · next isOpen =>
              rw [if_neg valid, if_neg isOpen] at same
              exact callWrite_congr same
  | _ => rfl

end PonyOS.Syscall
