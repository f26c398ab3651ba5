import Mathlib.Data.List.Basic
import Mathlib.Logic.Relation
import PonyOS.Lib.Steps
import PonyOS.Lib.Word

/-!
# Interrupt wrappers as code

The instructions that the assembly wrappers are made of, over the general
registers and the words pushed since the interrupt was taken.  A C function is
what it does to the registers; by the calling convention it leaves the stack of
its caller as it was.  A function called through a table has its arguments on the
stack and may overwrite them.  A function that does not return leaves the machine
away for good.
-/

namespace PonyOS.Interrupt

open PonyOS.Lib.Steps (steps)
open PonyOS.Lib.Word

universe u

/-! ## Registers -/

/-- The general registers but `esp`, which follows the stack. -/
structure Registers where
  eax : UInt32
  ecx : UInt32
  edx : UInt32
  ebx : UInt32
  ebp : UInt32
  esi : UInt32
  edi : UInt32
deriving DecidableEq, Repr

/-- Their names. -/
inductive Register where
  | eax
  | ecx
  | edx
  | ebx
  | ebp
  | esi
  | edi
deriving DecidableEq, Repr

namespace Registers

def get (registers : Registers) : Register → UInt32
  | .eax => registers.eax
  | .ecx => registers.ecx
  | .edx => registers.edx
  | .ebx => registers.ebx
  | .ebp => registers.ebp
  | .esi => registers.esi
  | .edi => registers.edi

def set (registers : Registers) (value : UInt32) : Register → Registers
  | .eax => { registers with eax := value }
  | .ecx => { registers with ecx := value }
  | .edx => { registers with edx := value }
  | .ebx => { registers with ebx := value }
  | .ebp => { registers with ebp := value }
  | .esi => { registers with esi := value }
  | .edi => { registers with edi := value }

/-- What `pusha` pushes, the last word first. -/
def saved (registers : Registers) (esp : UInt32) : List UInt32 :=
  [registers.edi, registers.esi, registers.ebp, esp, registers.ebx, registers.edx,
    registers.ecx, registers.eax]

end Registers

/-! ## Instructions -/

/-- The instructions of the wrappers; jumps go to an index of the code. -/
inductive Instruction (φ : Type u) where
  | pusha
  | popa
  | cld
  | cli
  | sti
  | pushl (register : Register)
  | popl (register : Register)
  | movl (value : UInt32) (register : Register)
  | cmpl (value : UInt32) (register : Register)
  | jg (target : Nat)
  | jle (target : Nat)
  | jmp (target : Nat)
  | call (function : φ)
  | callTable (register : Register)
  | iret
deriving DecidableEq, Repr

/-- What the C functions do, by name and by index of the table. -/
structure Callees (φ : Type u) where
  function : φ → Registers → Option Registers
  tableEntry : Nat → Registers → List UInt32 → Option (Registers × List UInt32)

/-- Inside a wrapper, back in the interrupted program, or in a function that does
not return. -/
inductive Status where
  | running
  | returned
  | away
deriving DecidableEq, Repr

/-- A machine inside a wrapper. -/
structure Machine where
  pc : Nat
  registers : Registers
  /-- The words above the frame of the interrupt, the last one first. -/
  stack : List UInt32
  /-- The stack pointer at the frame. -/
  frame : UInt32
  /-- The two values compared last. -/
  compared : Int × Int
  /-- The indices called through the table. -/
  dispatched : List Nat
  status : Status

namespace Machine

/-- The machine when the wrapper is entered. -/
def entered (registers : Registers) (frame : UInt32) : Machine :=
  { pc := 0
    registers := registers
    stack := []
    frame := frame
    compared := (0, 0)
    dispatched := []
    status := .running }

def esp (machine : Machine) : UInt32 :=
  machine.frame - 4 * UInt32.ofNat machine.stack.length

def next (machine : Machine) : Machine :=
  { machine with pc := machine.pc + 1 }

variable {φ : Type u}

/-- One instruction. -/
def perform (callees : Callees φ) (machine : Machine) : Instruction φ → Option Machine
  | .pusha =>
      some { machine.next with stack := machine.registers.saved machine.esp ++ machine.stack }
  | .popa =>
      match machine.stack with
      | edi :: esi :: ebp :: _ :: ebx :: edx :: ecx :: eax :: rest =>
          some { machine.next with registers := ⟨eax, ecx, edx, ebx, ebp, esi, edi⟩, stack := rest }
      | _ => none
  | .cld => some machine.next
  | .cli => some machine.next
  | .sti => some machine.next
  | .pushl register =>
      some { machine.next with stack := machine.registers.get register :: machine.stack }
  | .popl register =>
      match machine.stack with
      | value :: rest =>
          some
            { machine.next with
              registers := machine.registers.set value register
              stack := rest }
      | [] => none
  | .movl value register =>
      some { machine.next with registers := machine.registers.set value register }
  | .cmpl value register =>
      some
        { machine.next with
          compared := (int32 (machine.registers.get register).toNat, int32 value.toNat) }
  | .jg target =>
      some
        (if machine.compared.1 > machine.compared.2 then { machine with pc := target }
          else machine.next)
  | .jle target =>
      some
        (if machine.compared.1 ≤ machine.compared.2 then { machine with pc := target }
          else machine.next)
  | .jmp target => some { machine with pc := target }
  | .call function =>
      match callees.function function machine.registers with
      | some registers => some { machine.next with registers := registers }
      | none => some { machine with status := .away }
  | .callTable register =>
      let index := (machine.registers.get register).toNat
      match callees.tableEntry index machine.registers machine.stack with
      | some (registers, stack) =>
          some
            { machine.next with
              registers := registers
              stack := stack
              dispatched := index :: machine.dispatched }
      | none =>
          some { machine with dispatched := index :: machine.dispatched, status := .away }
  | .iret => if machine.stack = [] then some { machine with status := .returned } else none

/-- One step of a code. -/
def step (callees : Callees φ) (code : List (Instruction φ)) (machine : Machine) :
    Option Machine :=
  if machine.status = .running then (code[machine.pc]?).bind (machine.perform callees) else none

/-- A machine reached by the code. -/
def Reaches (callees : Callees φ) (code : List (Instruction φ)) : Machine → Machine → Prop :=
  Relation.ReflTransGen fun source target => source.step callees code = some target

variable {callees : Callees φ} {code : List (Instruction φ)} {source machine target : Machine}

/-- A step performs the instruction that it fetches. -/
theorem step_fetched (stepped : machine.step callees code = some target) :
    machine.status = .running ∧
      ∃ instruction, code[machine.pc]? = some instruction ∧
        machine.perform callees instruction = some target := by
  unfold step at stepped
  split at stepped
  · rename_i running
    exact ⟨running, Option.bind_eq_some_iff.mp stepped⟩
  · cases stepped

theorem step_eq_some (stepped : machine.step callees code = some target) :
    machine.status = .running ∧
      ∃ instruction ∈ code, machine.perform callees instruction = some target := by
  obtain ⟨running, instruction, fetched, performed⟩ := step_fetched stepped
  exact ⟨running, instruction, List.mem_of_getElem? fetched, performed⟩

theorem reaches_of_steps {n : Nat} (run : steps (step callees code) n machine = some target) :
    Reaches callees code machine target :=
  Lib.Steps.reaches_of_steps run

/-! ## Calls and returns -/

/-- The record of an instruction: only a call through the table is noted, and
only `iret` returns. -/
inductive Recorded (machine target : Machine) : Instruction φ → Prop
  | plain {instruction : Instruction φ} : target.dispatched = machine.dispatched →
      target.status = machine.status ∨ target.status = .away → Recorded machine target instruction
  | table {register : Register} :
      target.dispatched = (machine.registers.get register).toNat :: machine.dispatched →
      target.status = machine.status ∨ target.status = .away →
      Recorded machine target (.callTable register)
  | back : target = { machine with status := .returned } → Recorded machine target .iret

theorem perform_recorded {instruction : Instruction φ}
    (performed : machine.perform callees instruction = some target) :
    Recorded machine target instruction := by
  cases instruction with
  | popa | popl register =>
      simp only [perform] at performed
      split at performed
      · obtain rfl := Option.some.inj performed
        exact .plain rfl (Or.inl rfl)
      · cases performed
  | jg label | jle label =>
      simp only [perform] at performed
      obtain rfl := Option.some.inj performed
      split <;> exact .plain rfl (Or.inl rfl)
  | call function =>
      simp only [perform] at performed
      split at performed
      · obtain rfl := Option.some.inj performed
        exact .plain rfl (Or.inl rfl)
      · obtain rfl := Option.some.inj performed
        exact .plain rfl (Or.inr rfl)
  | callTable register =>
      simp only [perform] at performed
      split at performed
      · obtain rfl := Option.some.inj performed
        exact .table rfl (Or.inl rfl)
      · obtain rfl := Option.some.inj performed
        exact .table rfl (Or.inr rfl)
  | iret =>
      simp only [perform] at performed
      split at performed
      · obtain rfl := Option.some.inj performed
        exact .back rfl
      · cases performed
  | _ =>
      obtain rfl := Option.some.inj performed
      exact .plain rfl (Or.inl rfl)

/-- A call through the table is recorded whether it returns or not. -/
theorem perform_callTable (callees : Callees φ) (machine : Machine) (register : Register) :
    ∃ target, machine.perform callees (.callTable register) = some target ∧
      target.dispatched = (machine.registers.get register).toNat :: machine.dispatched := by
  simp only [perform]
  split
  · exact ⟨_, rfl, rfl⟩
  · exact ⟨_, rfl, rfl⟩

/-- Calls are recorded for good. -/
theorem Reaches.dispatched_suffix (reached : Reaches callees code source target) :
    source.dispatched <:+ target.dispatched := by
  induction reached with
  | refl => exact List.suffix_rfl
  | tail _ last ih =>
      obtain ⟨-, instruction, -, performed⟩ := step_eq_some last
      cases perform_recorded performed with
      | plain same _ => exact same ▸ ih
      | table called _ => exact called ▸ ih.trans (List.suffix_cons _ _)
      | back same =>
          subst same
          exact ih

/-- Code without a call through the table makes none. -/
theorem Reaches.dispatched_eq (reached : Reaches callees code source target)
    (noTable : ∀ register, Instruction.callTable register ∉ code) :
    target.dispatched = source.dispatched := by
  induction reached with
  | refl => rfl
  | tail _ last ih =>
      obtain ⟨-, instruction, member, performed⟩ := step_eq_some last
      cases perform_recorded performed with
      | plain same _ => exact same.trans ih
      | @table register => exact absurd member (noTable register)
      | back same =>
          subst same
          exact ih

/-- Code without `iret` does not return. -/
theorem Reaches.not_returned (reached : Reaches callees code source target)
    (running : source.status = .running) (noReturn : Instruction.iret ∉ code) :
    target.status ≠ .returned := by
  induction reached with
  | refl =>
      rw [running]
      decide
  | tail _ last _ =>
      obtain ⟨still, instruction, member, performed⟩ := step_eq_some last
      cases perform_recorded performed with
      | plain _ status | table _ status =>
          obtain same | away := status
          · rw [same, still]
            decide
          · rw [away]
            decide
      | back => exact absurd member noReturn

/-- A machine that has returned makes no further step. -/
theorem Reaches.eq_of_returned (reached : Reaches callees code machine target)
    (returned : machine.status = .returned) : target = machine := by
  obtain same | ⟨middle, first, -⟩ := Relation.ReflTransGen.cases_head reached
  · exact same.symm
  · exact nomatch returned.symm.trans (step_eq_some first).1

/-- What a run reaches on its way to a return without a call through the table. -/
theorem Reaches.before_return {final : Machine} (run : Reaches callees code source final)
    (back : final.status = .returned) (silent : final.dispatched = [])
    (reached : Reaches callees code source machine) :
    machine.dispatched = [] ∧ (machine.status = .returned → machine = final) := by
  have deterministic :
      Relator.RightUnique fun source target : Machine => source.step callees code = some target :=
    fun _ _ _ first second => Option.some.inj (first.symm.trans second)
  have onWay : Reaches callees code machine final := by
    obtain onWay | past := Relation.ReflTransGen.total_of_right_unique deterministic reached run
    · exact onWay
    · rw [Reaches.eq_of_returned past back]
      exact .refl
  constructor
  · exact List.suffix_nil.mp (silent ▸ onWay.dispatched_suffix)
  · intro returned
    exact (onWay.eq_of_returned returned).symm

end Machine

end PonyOS.Interrupt
