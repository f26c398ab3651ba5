import PonyOS.Interrupt.Machine

/-!
# String instructions over byte memory

The instructions that `memset` and `memcpy` are made of, over the general
registers and memory.  The segments are flat, so `ds` and `es` do not enter an
address.  A repeated instruction is one step for each repetition, as an interrupt
sees it.
-/

namespace PonyOS.Memory

open PonyOS.Interrupt (Register Registers)
open PonyOS.Lib.Steps
open PonyOS.Lib.Word
open StateTransition

/-- A processor with its memory, inside a piece of code. -/
structure Cpu where
  pc : Nat
  registers : Registers
  ds : UInt16
  es : UInt16
  /-- The zero flag. -/
  zf : Bool
  /-- The direction flag. -/
  df : Bool
  memory : Memory

/-- The source of an instruction. -/
inductive Operand where
  | immediate (value : UInt32)
  | register (register : Register)
deriving DecidableEq, Repr

/-- The instructions of the two routines; jumps go to an index of the code. -/
inductive Instruction where
  | testl (source : Operand) (register : Register)
  | jz (target : Nat)
  | jmp (target : Nat)
  | movl (source register : Register)
  | addl (value : UInt32) (register : Register)
  | subl (value : UInt32) (register : Register)
  | andl (value : UInt32) (register : Register)
  | shrl (count : UInt32) (register : Register)
  /-- `movb (%register), %al`. -/
  | loadAl (register : Register)
  /-- `movb %al, (%register)`. -/
  | storeAl (register : Register)
  /-- `movw %ds, %dx`. -/
  | movwDsDx
  /-- `movw %dx, %es`. -/
  | movwDxEs
  | cld
  | repStosl
  | repMovsl
deriving DecidableEq, Repr

/-- The little-endian bytes of a word stored at an address. -/
def storeLong (memory : Memory) (address word : UInt32) : Memory :=
  let first := Function.update memory address.toNat word.toUInt8
  let second := Function.update first (address + 1).toNat (word >>> 8).toUInt8
  let third := Function.update second (address + 2).toNat (word >>> 16).toUInt8
  Function.update third (address + 3).toNat (word >>> 24).toUInt8

/-- The little-endian word at an address. -/
def loadLong (memory : Memory) (address : UInt32) : UInt32 :=
  UInt32.ofNat (loadWord memory address.toNat)

namespace Cpu

def get (cpu : Cpu) (register : Register) : UInt32 :=
  cpu.registers.get register

def set (cpu : Cpu) (value : UInt32) (register : Register) : Cpu :=
  { cpu with registers := cpu.registers.set value register }

def value (cpu : Cpu) : Operand → UInt32
  | .immediate value => value
  | .register register => cpu.get register

def next (cpu : Cpu) : Cpu :=
  { cpu with pc := cpu.pc + 1 }

/-- The result of an arithmetic instruction. -/
def result (cpu : Cpu) (value : UInt32) (register : Register) : Cpu :=
  { cpu.next.set value register with zf := value = 0 }

/-- What a string instruction adds to its pointers. -/
def stride (cpu : Cpu) : UInt32 :=
  if cpu.df then -4 else 4

/-- One instruction. -/
def perform (cpu : Cpu) : Instruction → Cpu
  | .testl source register =>
      { cpu.next with zf := cpu.value source &&& cpu.get register = 0 }
  | .jz target => if cpu.zf then { cpu with pc := target } else cpu.next
  | .jmp target => { cpu with pc := target }
  | .movl source register => cpu.next.set (cpu.get source) register
  | .addl value register => cpu.result (cpu.get register + value) register
  | .subl value register => cpu.result (cpu.get register - value) register
  | .andl value register => cpu.result (cpu.get register &&& value) register
  | .shrl count register =>
      -- A shift by nothing leaves the flags alone.
      if count % 32 = 0 then cpu.next else cpu.result (cpu.get register >>> count) register
  | .loadAl register =>
      cpu.next.set
        (UInt32.ofNat (patchByte (cpu.get .eax).toNat 0 (cpu.memory (cpu.get register).toNat)))
        .eax
  | .storeAl register =>
      { cpu.next with
        memory := Function.update cpu.memory (cpu.get register).toNat (cpu.get .eax).toUInt8 }
  | .movwDsDx =>
      cpu.next.set
        (UInt32.ofNat ((cpu.get .edx).toNat / 65536 * 65536 + cpu.ds.toNat)) .edx
  | .movwDxEs => { cpu.next with es := (cpu.get .edx).toUInt16 }
  | .cld => { cpu.next with df := false }
  | .repStosl =>
      if cpu.get .ecx = 0 then cpu.next
      else
        { (cpu.set (cpu.get .ecx - 1) .ecx).set (cpu.get .edi + cpu.stride) .edi with
          memory := storeLong cpu.memory (cpu.get .edi) (cpu.get .eax) }
  | .repMovsl =>
      if cpu.get .ecx = 0 then cpu.next
      else
        { ((cpu.set (cpu.get .ecx - 1) .ecx).set (cpu.get .esi + cpu.stride) .esi).set
            (cpu.get .edi + cpu.stride) .edi with
          memory := storeLong cpu.memory (cpu.get .edi) (loadLong cpu.memory (cpu.get .esi)) }

/-- One step of a code, which ends where no instruction is left. -/
def step (code : List Instruction) (cpu : Cpu) : Option Cpu :=
  (code[cpu.pc]?).map cpu.perform

section Blocks

variable {code : List Instruction} {cpu : Cpu} {source : Operand} {register : Register}
  {target : Nat}

/-- A step performs the instruction that it fetches. -/
theorem performs {instruction : Instruction} {after : Cpu}
    (fetched : code[cpu.pc]? = some instruction) (performed : cpu.perform instruction = after) :
    Reaches (step code) cpu after := by
  apply Relation.ReflTransGen.single
  rw [step, fetched, ← performed]
  rfl

/-- A test whose jump is taken. -/
theorem test_jumps (tested : code[cpu.pc]? = some (.testl source register))
    (jump : code[cpu.pc + 1]? = some (.jz target))
    (zero : cpu.value source &&& cpu.get register = 0) :
    Reaches (step code) cpu { cpu with pc := target, zf := true } := by
  apply reaches_of_steps (n := 2)
  simp only [steps, step, tested, Option.map_some, Option.bind_some, perform, next, jump, zero,
    decide_true, if_true]

/-- A test whose jump is not taken. -/
theorem test_falls (tested : code[cpu.pc]? = some (.testl source register))
    (jump : code[cpu.pc + 1]? = some (.jz target))
    (nonzero : cpu.value source &&& cpu.get register ≠ 0) :
    Reaches (step code) cpu { cpu with pc := cpu.pc + 2, zf := false } := by
  apply reaches_of_steps (n := 2)
  simp only [steps, step, tested, Option.map_some, Option.bind_some, perform, next, jump, nonzero,
    decide_false, Bool.false_eq_true, if_false]

/-- `es` is set through `dx`. -/
theorem segment_copied (first : code[cpu.pc]? = some .movwDsDx)
    (second : code[cpu.pc + 1]? = some .movwDxEs) :
    ∃ edx es, Reaches (step code) cpu
      { cpu with
        pc := cpu.pc + 2
        es := es
        registers := { cpu.registers with edx := edx } } := by
  generalize edxEq :
    UInt32.ofNat ((cpu.get .edx).toNat / 65536 * 65536 + cpu.ds.toNat) = edx
  refine ⟨edx, edx.toUInt16, reaches_of_steps (n := 2) ?_⟩
  simp only [steps, step, first, Option.map_some, Option.bind_some, perform, next, set, second,
    edxEq]
  rfl

end Blocks

end Cpu

end PonyOS.Memory
