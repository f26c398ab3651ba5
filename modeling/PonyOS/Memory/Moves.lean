import PonyOS.Memory.Routines

/-!
# Moves and fills

`memmove` copies a range that may overlap its destination: forwards where the
source is behind the destination, else backwards from the last byte, with the
direction flag left set.  `memset_word` and `memset_dword` fill in units of two and
four bytes.

The routines say only that they change registers and flags, and each starts from
the flags that it finds.  So any number of calls, from any processor, leaves the
memory that the operations on ranges leave.
-/

namespace PonyOS.Memory

open PonyOS.Interrupt (Register Registers)
open PonyOS.Lib.Loop
open PonyOS.Lib.Steps
open PonyOS.Lib.Word
open StateTransition

/-! ## The code -/

/-- The instructions of these routines; the first four are those of `memset`. -/
inductive MoveInstruction where
  | movwDsDx
  | movwDxEs
  | cld
  | repStosl
  /-- `cmp %source, %register`. -/
  | cmpl (source register : Register)
  | jae (target : Nat)
  /-- `leal displacement(%base, %index), %register`. -/
  | leal (displacement : UInt32) (base index register : Register)
  | std
  | repStosw
  | repMovsb
deriving DecidableEq, Repr

/-- A processor with the carry flag. -/
structure MoveCpu where
  cpu : Cpu
  /-- The carry flag. -/
  cf : Bool

/-- The bytes of the lower half of a word stored at an address. -/
def storeWord (memory : Memory) (address word : UInt32) : Memory :=
  let first := Function.update memory address.toNat word.toUInt8
  Function.update first (address + 1).toNat (word >>> 8).toUInt8

namespace MoveCpu

/-- An instruction that leaves the carry flag alone. -/
def plain (machine : MoveCpu) (instruction : Instruction) : MoveCpu :=
  { machine with cpu := machine.cpu.perform instruction }

/-- What a string instruction on units of `size` bytes adds to its pointers. -/
def stride (cpu : Cpu) (size : UInt32) : UInt32 :=
  if cpu.df then -size else size

/-- One instruction. -/
def perform (machine : MoveCpu) : MoveInstruction → MoveCpu
  | .movwDsDx => machine.plain .movwDsDx
  | .movwDxEs => machine.plain .movwDxEs
  | .cld => machine.plain .cld
  | .repStosl => machine.plain .repStosl
  | .cmpl source register =>
      { cpu := { machine.cpu.next with
          zf := machine.cpu.get register - machine.cpu.get source = 0 }
        cf := machine.cpu.get register < machine.cpu.get source }
  | .jae target =>
      if machine.cf then { machine with cpu := machine.cpu.next }
      else { machine with cpu := { machine.cpu with pc := target } }
  | .leal displacement base index register =>
      { machine with
        cpu := machine.cpu.next.set
          (machine.cpu.get base + machine.cpu.get index + displacement) register }
  | .std => { machine with cpu := { machine.cpu.next with df := true } }
  | .repStosw =>
      let cpu := machine.cpu
      if cpu.get .ecx = 0 then { machine with cpu := cpu.next }
      else
        { machine with
          cpu := { (cpu.set (cpu.get .ecx - 1) .ecx).set (cpu.get .edi + stride cpu 2) .edi with
            memory := storeWord cpu.memory (cpu.get .edi) (cpu.get .eax) } }
  | .repMovsb =>
      let cpu := machine.cpu
      if cpu.get .ecx = 0 then { machine with cpu := cpu.next }
      else
        { machine with
          cpu := { ((cpu.set (cpu.get .ecx - 1) .ecx).set (cpu.get .esi + stride cpu 1) .esi).set
              (cpu.get .edi + stride cpu 1) .edi with
            memory := Function.update cpu.memory (cpu.get .edi).toNat
              (cpu.memory (cpu.get .esi).toNat) } }

/-- One step of a code, which ends where no instruction is left. -/
def step (code : List MoveInstruction) (machine : MoveCpu) : Option MoveCpu :=
  (code[machine.cpu.pc]?).map machine.perform

end MoveCpu

/-- The code of `memmove`: `.memmove_go` is 8. -/
def memmoveCode : List MoveInstruction :=
  [ .movwDsDx
  , .movwDxEs
  , .cld
  , .cmpl .edi .esi
  , .jae 8
  , .leal (-1) .esi .ecx .esi
  , .leal (-1) .edi .ecx .edi
  , .std
  , .repMovsb ]

/-- The code of `memset_word`. -/
def memsetWordCode : List MoveInstruction :=
  [ .movwDsDx, .movwDxEs, .cld, .repStosw ]

/-- The code of `memset_dword`. -/
def memsetDwordCode : List MoveInstruction :=
  [ .movwDsDx, .movwDxEs, .cld, .repStosl ]

/-- `memmove`, from a processor in any state, with the pointer it returns. -/
def memmove (machine : MoveCpu) (dest src n : UInt32) : Part (UInt32 × MoveCpu) :=
  let entered := { machine with
    cpu := { machine.cpu with
      pc := 0
      registers := { machine.cpu.registers with edi := dest, esi := src, ecx := n } } }
  (eval (MoveCpu.step memmoveCode) entered).map fun target => (dest, target)

/-- `memset_word`, from a processor in any state, with the pointer it returns. -/
def memsetWord (machine : MoveCpu) (s c n : UInt32) : Part (UInt32 × MoveCpu) :=
  let entered := { machine with
    cpu := { machine.cpu with
      pc := 0
      registers := { machine.cpu.registers with eax := c, edi := s, ecx := n } } }
  (eval (MoveCpu.step memsetWordCode) entered).map fun target => (s, target)

/-- `memset_dword`, from a processor in any state, with the pointer it returns. -/
def memsetDword (machine : MoveCpu) (s c n : UInt32) : Part (UInt32 × MoveCpu) :=
  let entered := { machine with
    cpu := { machine.cpu with
      pc := 0
      registers := { machine.cpu.registers with eax := c, edi := s, ecx := n } } }
  (eval (MoveCpu.step memsetDwordCode) entered).map fun target => (s, target)

/-! ## Operations on ranges -/

/-- The range at `dest` holds what the range at `src` held. -/
def moveRange (memory : Memory) (dest src n : Nat) : Memory := fun address =>
  if dest ≤ address ∧ address < dest + n then memory (src + (address - dest)) else memory address

theorem moveRange_zero (memory : Memory) (dest src : Nat) :
    moveRange memory dest src 0 = memory := by
  funext address
  exact if_neg (by omega)

/-- A move by one byte more behind the others. -/
theorem moveRange_succ (memory : Memory) {dest src : Nat} (n : Nat)
    (unread : src + n < dest ∨ dest ≤ src) :
    Function.update (moveRange memory dest src n) (dest + n)
        (moveRange memory dest src n (src + n)) =
      moveRange memory dest src (n + 1) := by
  have read : moveRange memory dest src n (src + n) = memory (src + n) := if_neg (by omega)
  rw [read]
  funext address
  by_cases here : address = dest + n
  · subst here
    have inside : dest ≤ dest + n ∧ dest + n < dest + (n + 1) := by omega
    rw [Function.update_self, moveRange, if_pos inside, Nat.add_sub_cancel_left]
  · rw [Function.update_of_ne here]
    unfold moveRange
    by_cases inside : dest ≤ address ∧ address < dest + n
    · rw [if_pos inside, if_pos (by omega)]
    · rw [if_neg inside, if_neg (by omega)]

/-- A move by one byte more before the others. -/
theorem moveRange_pred (memory : Memory) {dest src : Nat} (n : Nat) (behind : src < dest) :
    Function.update (moveRange memory (dest + 1) (src + 1) n) dest
        (moveRange memory (dest + 1) (src + 1) n src) =
      moveRange memory dest src (n + 1) := by
  have read : moveRange memory (dest + 1) (src + 1) n src = memory src := if_neg (by omega)
  rw [read]
  funext address
  by_cases here : address = dest
  · subst here
    have inside : address ≤ address ∧ address < address + (n + 1) := by omega
    rw [Function.update_self, moveRange, if_pos inside, Nat.sub_self, Nat.add_zero]
  · rw [Function.update_of_ne here]
    unfold moveRange
    by_cases inside : dest + 1 ≤ address ∧ address < dest + 1 + n
    · have place : src + 1 + (address - (dest + 1)) = src + (address - dest) := by omega
      rw [if_pos inside, if_pos (by omega), place]
    · rw [if_neg inside, if_neg (by omega)]

/-- Byte `j` of a word. -/
def byteOf (word : UInt32) (j : Nat) : UInt8 :=
  (word >>> UInt32.ofNat (8 * j)).toUInt8

/-- The range of `n` units of `size` bytes at `s` holds the lower bytes of `c` in each. -/
def fillRange (memory : Memory) (s size : Nat) (c : UInt32) (n : Nat) : Memory := fun address =>
  if s ≤ address ∧ address < s + size * n then byteOf c ((address - s) % size) else memory address

/-! ## Units of bytes -/

theorem byteOf_zero (word : UInt32) : byteOf word 0 = word.toUInt8 := by
  simp [byteOf]

theorem fillRange_unit (memory : Memory) (s : Nat) {size : Nat} (c : UInt32) (k : Nat) :
    forUpTo size
        (fun j memory => Function.update memory (j + (s + size * k))
          (byteOf c (j + (s + size * k) - (s + size * k))))
        (fillRange memory s size c k) =
      fillRange memory s size c (k + 1) := by
  rw [forUpTo_update (fun address => byteOf c (address - (s + size * k)))]
  funext address
  have next : size * (k + 1) = size * k + size := Nat.mul_succ size k
  unfold fillRange
  by_cases inUnit : s + size * k ≤ address ∧ address < size + (s + size * k)
  · have place : (address - s) % size = address - (s + size * k) := by
      have split : address - s = size * k + (address - (s + size * k)) := by omega
      rw [split, Nat.mul_add_mod]
      exact Nat.mod_eq_of_lt (by omega)
    rw [if_pos inUnit, if_pos (by omega), place]
  · rw [if_neg inUnit]
    by_cases before : s ≤ address ∧ address < s + size * k
    · rw [if_pos before, if_pos (by omega)]
    · rw [if_neg before, if_neg (by omega)]

theorem storeWord_fill (memory : Memory) {edi : UInt32} {s k : Nat} (c : UInt32)
    (here : edi.toNat = s + 2 * k) (fits : s + 2 * k + 2 ≤ 4294967296) :
    storeWord (fillRange memory s 2 c k) edi c = fillRange memory s 2 c (k + 1) := by
  have second : (edi + 1).toNat = s + 2 * k + 1 :=
    toNat_add_of_fits edi 1 here (Nat.lt_of_lt_of_le (by simp) fits)
  rw [← fillRange_unit, storeWord, here, second, ← byteOf_zero]
  simp only [forUpTo_succ, forUpTo_zero, Nat.zero_add, Nat.add_sub_cancel,
    Nat.add_comm 1]
  rfl

theorem storeLong_fill (memory : Memory) {edi : UInt32} {s k : Nat} (c : UInt32)
    (here : edi.toNat = s + 4 * k) (fits : s + 4 * k + 4 ≤ 4294967296) :
    storeLong (fillRange memory s 4 c k) edi c = fillRange memory s 4 c (k + 1) := by
  have second : (edi + 1).toNat = s + 4 * k + 1 :=
    toNat_add_of_fits edi 1 here (Nat.lt_of_lt_of_le (by simp) fits)
  have third : (edi + 2).toNat = s + 4 * k + 2 :=
    toNat_add_of_fits edi 2 here (Nat.lt_of_lt_of_le (by simp) fits)
  have fourth : (edi + 3).toNat = s + 4 * k + 3 :=
    toNat_add_of_fits edi 3 here (Nat.lt_of_lt_of_le (by simp) fits)
  rw [← fillRange_unit, storeLong, here, second, third, fourth, ← byteOf_zero]
  simp only [forUpTo_succ, forUpTo_zero, Nat.zero_add, Nat.add_sub_cancel,
    Nat.add_comm 1, Nat.add_comm 2, Nat.add_comm 3]
  rfl

/-! ## Repeated instructions -/

/-- Code ends behind its last instruction. -/
theorem ends_behind {code : List MoveInstruction} {machine target : MoveCpu}
    (run : Reaches (MoveCpu.step code) machine target) (behind : target.cpu.pc = code.length) :
    target ∈ eval (MoveCpu.step code) machine := by
  refine mem_eval.mpr ⟨run, ?_⟩
  rw [MoveCpu.step, behind, List.getElem?_length]
  rfl

/-! ## Fills -/

/-- A fill with `left` of its `n` units to go. -/
structure Filling (memory : Memory) (s c : UInt32) (size n left : Nat) (machine : MoveCpu) :
    Prop where
  pc : machine.cpu.pc = 3
  forward : machine.cpu.df = false
  eax : machine.cpu.registers.eax = c
  counted : machine.cpu.registers.ecx.toNat = left
  total : left ≤ n
  edi : machine.cpu.registers.edi.toNat = (s.toNat + size * (n - left)) % 4294967296
  stored : machine.cpu.memory = fillRange memory s.toNat size c (n - left)

theorem Filling.unit {memory : Memory} {s c : UInt32} {size n left : Nat}
    {machine target : MoveCpu} (filling : Filling memory s c size n (left + 1) machine)
    (pc : target.cpu.pc = machine.cpu.pc) (df : target.cpu.df = machine.cpu.df)
    (eax : target.cpu.registers.eax = machine.cpu.registers.eax)
    (ecx : target.cpu.registers.ecx = machine.cpu.registers.ecx - 1)
    (edi : target.cpu.registers.edi = machine.cpu.registers.edi + UInt32.ofNat size)
    (small : size < 4294967296)
    (stored : target.cpu.memory = fillRange memory s.toNat size c (n - (left + 1) + 1)) :
    Filling memory s c size n left target where
  pc := pc.trans filling.pc
  forward := df.trans filling.forward
  eax := eax.trans filling.eax
  counted := by rw [ecx, (count_pred filling.counted).2]
  total := Nat.le_of_succ_le filling.total
  edi := by
    have further := pointer_advances filling.edi edi
    have units : size * (n - left) = size * (n - (left + 1)) + size := by
      have total := filling.total
      rw [show n - left = n - (left + 1) + 1 by omega, Nat.mul_succ]
    rw [further, units, UInt32.toNat_ofNat_of_lt' small]
  stored := by
    have total := filling.total
    rw [stored, show n - (left + 1) + 1 = n - left by omega]

/-- With units to go, the pointer is at the next of them, which has room. -/
theorem Filling.here {memory : Memory} {s c : UInt32} {size n left : Nat} {machine : MoveCpu}
    (filling : Filling memory s c size n (left + 1) machine) (sized : 0 < size)
    (fits : s.toNat + size * n ≤ 4294967296) :
    machine.cpu.registers.edi.toNat = s.toNat + size * (n - (left + 1)) ∧
      s.toNat + size * (n - (left + 1)) + size ≤ 4294967296 := by
  have next : n - (left + 1) + 1 ≤ n :=
    Nat.succ_le_of_lt (Nat.sub_lt_of_pos_le (Nat.succ_pos left) filling.total)
  have units : size * (n - (left + 1)) + size ≤ size * n := Nat.mul_le_mul_left size next
  have room : s.toNat + size * (n - (left + 1)) + size ≤ 4294967296 := by omega
  exact ⟨filling.edi.trans (Nat.mod_eq_of_lt (by omega)), room⟩

theorem filling_word {memory : Memory} {s c : UInt32} {n : Nat}
    (fits : s.toNat + 2 * n ≤ 4294967296) (left : Nat) (machine : MoveCpu)
    (filling : Filling memory s c 2 n (left + 1) machine) :
    ∃ target, Reaches (MoveCpu.step memsetWordCode) machine target ∧
      Filling memory s c 2 n left target := by
  rcases machine with ⟨⟨pc, registers, ds, es, zf, df, bytes⟩, cf⟩
  rcases filling.pc with rfl
  rcases filling.forward with rfl
  have counted := count_pred filling.counted
  rcases filling.here (Nat.succ_pos 1) fits with ⟨here, room⟩
  refine ⟨_, reaches_of_steps (n := 1) (congrArg some (if_neg counted.1)), ?_⟩
  refine filling.unit rfl rfl rfl rfl rfl (by decide) ?_
  have stored := filling.stored
  have eax := filling.eax
  dsimp only at stored eax
  rw [← storeWord_fill memory c here room, ← stored, ← eax]
  rfl

theorem filling_dword {memory : Memory} {s c : UInt32} {n : Nat}
    (fits : s.toNat + 4 * n ≤ 4294967296) (left : Nat) (machine : MoveCpu)
    (filling : Filling memory s c 4 n (left + 1) machine) :
    ∃ target, Reaches (MoveCpu.step memsetDwordCode) machine target ∧
      Filling memory s c 4 n left target := by
  rcases machine with ⟨⟨pc, registers, ds, es, zf, df, bytes⟩, cf⟩
  rcases filling.pc with rfl
  rcases filling.forward with rfl
  have counted := count_pred filling.counted
  rcases filling.here (Nat.succ_pos 3) fits with ⟨here, room⟩
  have performed : MoveCpu.perform ⟨⟨3, registers, ds, es, zf, false, bytes⟩, cf⟩ .repStosl = _ :=
    congrArg (fun cpu => MoveCpu.mk cpu cf) (if_neg counted.1)
  refine ⟨_, reaches_of_steps (n := 1) (congrArg some performed), ?_⟩
  refine filling.unit rfl rfl rfl rfl rfl (by decide) ?_
  have stored := filling.stored
  have eax := filling.eax
  dsimp only at stored eax
  rw [← storeLong_fill memory c here room, ← stored, ← eax]
  rfl

/-- The routines start with the segment register and the direction flag. -/
theorem prologue (rest : List MoveInstruction) (machine : MoveCpu) (here : machine.cpu.pc = 0) :
    ∃ edx es, Reaches (MoveCpu.step (.movwDsDx :: .movwDxEs :: .cld :: rest)) machine
      { machine with
        cpu := { machine.cpu with
          pc := 3
          es := es
          df := false
          registers := { machine.cpu.registers with edx := edx } } } := by
  rcases machine with ⟨⟨pc, registers, ds, es, zf, df, bytes⟩, cf⟩
  rcases here with rfl
  exact ⟨_, _, reaches_of_steps (n := 3) rfl⟩

/-- A fill by a repeated instruction ends with its units set. -/
theorem filling_ends {memory : Memory} {s c : UInt32} {size n : Nat} {rep : MoveInstruction}
    (turn : ∀ left machine, Filling memory s c size n (left + 1) machine →
      ∃ target, Reaches (MoveCpu.step [.movwDsDx, .movwDxEs, .cld, rep]) machine target ∧
        Filling memory s c size n left target)
    (spent : ∀ machine : MoveCpu, machine.cpu.registers.ecx = 0 →
      machine.perform rep = { machine with cpu := machine.cpu.next })
    (machine : MoveCpu) (here : machine.cpu.pc = 0) (same : machine.cpu.memory = memory)
    (eax : machine.cpu.registers.eax = c) (edi : machine.cpu.registers.edi = s)
    (counted : machine.cpu.registers.ecx.toNat = n) :
    ∃ target ∈ eval (MoveCpu.step [.movwDsDx, .movwDxEs, .cld, rep]) machine,
      target.cpu.memory = fillRange memory s.toNat size c n := by
  rcases prologue [rep] machine here with ⟨edx, es, entered⟩
  have initial : Filling memory s c size n n
      { machine with
        cpu := { machine.cpu with
          pc := 3
          es := es
          df := false
          registers := { machine.cpu.registers with edx := edx } } } :=
    { pc := rfl
      forward := rfl
      eax := eax
      counted := counted
      total := Nat.le_refl n
      edi := by
        rw [Nat.sub_self, Nat.mul_zero, Nat.add_zero, Nat.mod_eq_of_lt s.toNat_lt, ← edi]
      stored := by
        rw [Nat.sub_self, ← same]
        funext address
        exact (if_neg (by omega)).symm }
  rcases reaches_of_progress turn initial with ⟨last, run, finished⟩
  have ended : MoveCpu.step [.movwDsDx, .movwDxEs, .cld, rep] last =
      some { last with cpu := last.cpu.next } := by
    rw [MoveCpu.step, finished.pc]
    exact congrArg some (spent last (count_zero finished.counted))
  refine ⟨_, ends_behind ((entered.trans run).tail ended) ?_, finished.stored⟩
  exact congrArg (· + 1) finished.pc

/-- `memset_word` ends with its units set. -/
theorem memsetWord_ends (machine : MoveCpu) (s c n : UInt32)
    (fits : s.toNat + 2 * n.toNat ≤ 4294967296) :
    ∃ target, (s, target) ∈ memsetWord machine s c n ∧
      target.cpu.memory = fillRange machine.cpu.memory s.toNat 2 c n.toNat := by
  have spent : ∀ machine : MoveCpu, machine.cpu.registers.ecx = 0 →
      machine.perform .repStosw = { machine with cpu := machine.cpu.next } :=
    fun machine zero => if_pos zero
  rcases filling_ends (filling_word fits) spent
    { machine with
      cpu := { machine.cpu with
        pc := 0
        registers := { machine.cpu.registers with eax := c, edi := s, ecx := n } } }
    rfl rfl rfl rfl rfl with ⟨target, ended, stored⟩
  exact ⟨target, Part.mem_map _ ended, stored⟩

/-- `memset_dword` ends with its units set. -/
theorem memsetDword_ends (machine : MoveCpu) (s c n : UInt32)
    (fits : s.toNat + 4 * n.toNat ≤ 4294967296) :
    ∃ target, (s, target) ∈ memsetDword machine s c n ∧
      target.cpu.memory = fillRange machine.cpu.memory s.toNat 4 c n.toNat := by
  have spent : ∀ machine : MoveCpu, machine.cpu.registers.ecx = 0 →
      machine.perform .repStosl = { machine with cpu := machine.cpu.next } :=
    fun machine zero => congrArg (fun cpu => MoveCpu.mk cpu machine.cf) (if_pos zero)
  rcases filling_ends (filling_dword fits) spent
    { machine with
      cpu := { machine.cpu with
        pc := 0
        registers := { machine.cpu.registers with eax := c, edi := s, ecx := n } } }
    rfl rfl rfl rfl rfl with ⟨target, ended, stored⟩
  exact ⟨target, Part.mem_map _ ended, stored⟩

/-! ## `memmove` -/

/-- A move with `left` bytes to go: forwards the first bytes are copied, backwards
the last. -/
structure Moving (memory : Memory) (dest src : UInt32) (n : Nat) (backwards : Bool) (left : Nat)
    (machine : MoveCpu) : Prop where
  pc : machine.cpu.pc = 8
  direction : machine.cpu.df = backwards
  counted : machine.cpu.registers.ecx.toNat = left
  total : left ≤ n
  pointers : 0 < left → ∃ next, next = (if backwards then left - 1 else n - left) ∧
    machine.cpu.registers.esi.toNat = src.toNat + next ∧
    machine.cpu.registers.edi.toNat = dest.toNat + next
  stored : machine.cpu.memory =
    if backwards then moveRange memory (dest.toNat + left) (src.toNat + left) (n - left)
    else moveRange memory dest.toNat src.toNat (n - left)

/-- What a step of `rep movsb` with bytes left does. -/
theorem moved_byte {registers : Registers} (ds es : UInt16) (zf df cf : Bool) (memory : Memory)
    (left : registers.ecx ≠ 0) :
    MoveCpu.step memmoveCode ⟨⟨8, registers, ds, es, zf, df, memory⟩, cf⟩ =
      some
        ⟨⟨8,
          { registers with
            ecx := registers.ecx - 1
            esi := registers.esi + if df then -1 else 1
            edi := registers.edi + if df then -1 else 1 },
          ds, es, zf, df,
          Function.update memory registers.edi.toNat (memory registers.esi.toNat)⟩, cf⟩ :=
  congrArg some (if_neg left)

theorem pointer_back {pointer : UInt32} {place next : Nat} (here : pointer.toNat = place + next)
    (more : 0 < next) : (pointer + -1).toNat = place + (next - 1) := by
  have moved := count_pred (show pointer.toNat = place + (next - 1) + 1 by omega)
  rw [← UInt32.sub_eq_add_neg]
  exact moved.2

theorem moving_forwards {memory : Memory} {dest src : UInt32} {n : Nat}
    (ahead : dest.toNat ≤ src.toNat) (fitsSrc : src.toNat + n ≤ 4294967296) (left : Nat)
    (machine : MoveCpu) (moving : Moving memory dest src n false (left + 1) machine) :
    ∃ target, Reaches (MoveCpu.step memmoveCode) machine target ∧
      Moving memory dest src n false left target := by
  rcases machine with ⟨⟨pc, registers, ds, es, zf, df, bytes⟩, cf⟩
  rcases moving with ⟨rfl, rfl, counted, total, pointers, stored⟩
  rcases pointers (Nat.succ_pos left) with ⟨next, nextEq, esi, edi⟩
  simp only [Bool.false_eq_true, if_false] at nextEq stored
  rcases count_pred counted with ⟨nonzero, fewer⟩
  have moved := moved_byte ds es zf false cf bytes nonzero
  refine ⟨_, .single moved, rfl, rfl, fewer, by omega, ?_, ?_⟩
  · intro more
    refine ⟨next + 1, by simp; omega, ?_, ?_⟩
    · exact toNat_add_of_fits _ 1 esi (by simp; omega)
    · exact toNat_add_of_fits _ 1 edi (by simp; omega)
  · have rest : n - left = next + 1 := by omega
    dsimp only at esi edi stored ⊢
    rw [esi, edi, stored, ← nextEq, rest]
    exact moveRange_succ memory next (Or.inr ahead)

theorem moving_backwards {memory : Memory} {dest src : UInt32} {n : Nat}
    (behind : src.toNat < dest.toNat) (left : Nat) (machine : MoveCpu)
    (moving : Moving memory dest src n true (left + 1) machine) :
    ∃ target, Reaches (MoveCpu.step memmoveCode) machine target ∧
      Moving memory dest src n true left target := by
  rcases machine with ⟨⟨pc, registers, ds, es, zf, df, bytes⟩, cf⟩
  rcases moving with ⟨rfl, rfl, counted, total, pointers, stored⟩
  rcases pointers (Nat.succ_pos left) with ⟨next, nextEq, esi, edi⟩
  simp only [if_true, Nat.add_sub_cancel] at nextEq stored
  rcases count_pred counted with ⟨nonzero, fewer⟩
  subst nextEq
  have moved := moved_byte ds es zf true cf bytes nonzero
  refine ⟨_, .single moved, rfl, rfl, fewer, by omega, ?_, ?_⟩
  · intro more
    exact ⟨next - 1, rfl, pointer_back esi more, pointer_back edi more⟩
  · have rest : n - next = n - (next + 1) + 1 := by omega
    dsimp only at esi edi stored ⊢
    rw [esi, edi, stored, rest]
    exact moveRange_pred memory (n - (next + 1)) (Nat.add_lt_add_right behind next)

theorem Moving.ends {memory : Memory} {dest src : UInt32} {n : Nat} {backwards : Bool}
    {machine last : MoveCpu} (run : Reaches (MoveCpu.step memmoveCode) machine last)
    (finished : Moving memory dest src n backwards 0 last) :
    ∃ target ∈ eval (MoveCpu.step memmoveCode) machine,
      target.cpu.memory = moveRange memory dest.toNat src.toNat n := by
  rcases last with ⟨⟨pc, registers, ds, es, zf, df, bytes⟩, cf⟩
  rcases finished with ⟨rfl, -, counted, -, -, stored⟩
  have ended : MoveCpu.step memmoveCode ⟨⟨8, registers, ds, es, zf, df, bytes⟩, cf⟩ =
      some ⟨⟨9, registers, ds, es, zf, df, bytes⟩, cf⟩ :=
    congrArg some (if_pos (count_zero counted))
  refine ⟨_, ends_behind (run.tail ended) rfl, ?_⟩
  dsimp only at stored ⊢
  rw [stored]
  cases backwards with
  | true => rfl
  | false => rfl

section Start

variable (registers : Registers) (ds es : UInt16) (zf cf : Bool) (memory : Memory)

/-- The jump is taken where the source is not before the destination. -/
theorem memmove_jumps (ahead : ¬ registers.esi < registers.edi) :
    ∃ zf' cf', Reaches (MoveCpu.step memmoveCode) ⟨⟨3, registers, ds, es, zf, false, memory⟩, cf⟩
      ⟨⟨8, registers, ds, es, zf', false, memory⟩, cf'⟩ := by
  have compared : MoveCpu.step memmoveCode ⟨⟨3, registers, ds, es, zf, false, memory⟩, cf⟩ =
      some ⟨⟨4, registers, ds, es, registers.esi - registers.edi = 0, false, memory⟩,
        registers.esi < registers.edi⟩ := rfl
  have jumped : MoveCpu.step memmoveCode
      ⟨⟨4, registers, ds, es, registers.esi - registers.edi = 0, false, memory⟩,
        registers.esi < registers.edi⟩ =
      some ⟨⟨8, registers, ds, es, registers.esi - registers.edi = 0, false, memory⟩,
        registers.esi < registers.edi⟩ :=
    congrArg some (if_neg (by simpa using ahead))
  exact ⟨_, _, .head compared (.single jumped)⟩

theorem leal_source {v : UInt32} (last : registers.esi + registers.ecx + -1 = v) :
    MoveCpu.step memmoveCode ⟨⟨5, registers, ds, es, zf, false, memory⟩, cf⟩ =
      some ⟨⟨6, registers.set v .esi, ds, es, zf, false, memory⟩, cf⟩ := by
  subst last
  rfl

theorem leal_dest {v : UInt32} (last : registers.edi + registers.ecx + -1 = v) :
    MoveCpu.step memmoveCode ⟨⟨6, registers, ds, es, zf, false, memory⟩, cf⟩ =
      some ⟨⟨7, registers.set v .edi, ds, es, zf, false, memory⟩, cf⟩ := by
  subst last
  rfl

/-- Else both pointers go to the last bytes, and the direction flag is set. -/
theorem memmove_falls (behind : registers.esi < registers.edi) {source dest : UInt32}
    (lastSource : registers.esi + registers.ecx + -1 = source)
    (lastDest : registers.edi + registers.ecx + -1 = dest) :
    ∃ zf' cf', Reaches (MoveCpu.step memmoveCode)
      ⟨⟨3, registers, ds, es, zf, false, memory⟩, cf⟩
      ⟨⟨8, (registers.set source .esi).set dest .edi, ds, es, zf', true, memory⟩, cf'⟩ := by
  have compared : MoveCpu.step memmoveCode ⟨⟨3, registers, ds, es, zf, false, memory⟩, cf⟩ =
      some ⟨⟨4, registers, ds, es, registers.esi - registers.edi = 0, false, memory⟩,
        registers.esi < registers.edi⟩ := rfl
  have fell : MoveCpu.step memmoveCode
      ⟨⟨4, registers, ds, es, registers.esi - registers.edi = 0, false, memory⟩,
        registers.esi < registers.edi⟩ =
      some ⟨⟨5, registers, ds, es, registers.esi - registers.edi = 0, false, memory⟩,
        registers.esi < registers.edi⟩ :=
    congrArg some (if_pos (by simpa using behind))
  generalize decide (registers.esi - registers.edi = 0) = zero at compared fell
  generalize decide (registers.esi < registers.edi) = less at compared fell
  have pointed := leal_source registers ds es zero less memory lastSource
  have both := leal_dest (registers.set source .esi) ds es zero less memory lastDest
  exact ⟨zero, less, .head compared (.head fell (.head pointed (.head both (.single rfl))))⟩

end Start

theorem last_byte {pointer count : UInt32} (fits : pointer.toNat + count.toNat ≤ 4294967296)
    (more : 0 < count.toNat) :
    (pointer + count + -1).toNat = pointer.toNat + (count.toNat - 1) := by
  have counted := count_pred (show count.toNat = count.toNat - 1 + 1 by omega)
  have before : (count + -1).toNat = count.toNat - 1 := by
    rw [← UInt32.sub_eq_add_neg]
    exact counted.2
  rw [UInt32.add_assoc, ← before]
  exact toNat_add_of_fits pointer _ rfl (by omega)

/-- `memmove` ends with its range moved, however the two ranges lie. -/
theorem memmove_ends (machine : MoveCpu) (dest src n : UInt32)
    (fitsDest : dest.toNat + n.toNat ≤ 4294967296)
    (fitsSrc : src.toNat + n.toNat ≤ 4294967296) :
    ∃ target, (dest, target) ∈ memmove machine dest src n ∧
      target.cpu.memory = moveRange machine.cpu.memory dest.toNat src.toNat n.toNat := by
  rcases machine with ⟨⟨pc, registers, ds, es, zf, df, memory⟩, cf⟩
  suffices moves : ∃ target ∈ eval (MoveCpu.step memmoveCode)
      ⟨⟨0, { registers with edi := dest, esi := src, ecx := n }, ds, es, zf, df, memory⟩, cf⟩,
      target.cpu.memory = moveRange memory dest.toNat src.toNat n.toNat by
    rcases moves with ⟨target, ended, stored⟩
    exact ⟨target, Part.mem_map _ ended, stored⟩
  rcases prologue (memmoveCode.drop 3)
    ⟨⟨0, { registers with edi := dest, esi := src, ecx := n }, ds, es, zf, df, memory⟩, cf⟩
    rfl with ⟨edx, newEs, entered⟩
  by_cases behind : src < dest
  · generalize sourceEq : src + n + -1 = source
    generalize lastEq : dest + n + -1 = last
    rcases memmove_falls
      { registers with edi := dest, esi := src, ecx := n, edx := edx } ds newEs zf cf memory behind
      sourceEq lastEq with ⟨newZf, newCf, started⟩
    have initial : Moving memory dest src n.toNat true n.toNat
        ⟨⟨8, ({ registers with edi := dest, esi := src, ecx := n, edx := edx }.set source .esi).set
          last .edi, ds, newEs, newZf, true, memory⟩, newCf⟩ :=
      { pc := rfl
        direction := rfl
        counted := rfl
        total := Nat.le_refl _
        pointers := fun more => ⟨n.toNat - 1, rfl,
          (congrArg UInt32.toNat sourceEq.symm).trans (last_byte fitsSrc more),
          (congrArg UInt32.toNat lastEq.symm).trans (last_byte fitsDest more)⟩
        stored := by
          rw [if_pos rfl, Nat.sub_self, moveRange_zero] }
    rcases reaches_of_progress (moving_backwards (UInt32.lt_iff_toNat_lt.mp behind)) initial with
      ⟨last, run, finished⟩
    exact finished.ends ((entered.trans started).trans run)
  · rcases memmove_jumps
      { registers with edi := dest, esi := src, ecx := n, edx := edx } ds newEs zf cf memory behind
      with ⟨newZf, newCf, started⟩
    have initial : Moving memory dest src n.toNat false n.toNat
        ⟨⟨8, { registers with edi := dest, esi := src, ecx := n, edx := edx }, ds, newEs, newZf,
          false, memory⟩, newCf⟩ :=
      { pc := rfl
        direction := rfl
        counted := rfl
        total := Nat.le_refl _
        pointers := fun more => ⟨0, (Nat.sub_self _).symm, rfl, rfl⟩
        stored := by
          rw [if_neg (by decide), Nat.sub_self, moveRange_zero] }
    have ahead : dest.toNat ≤ src.toNat := Nat.le_of_not_lt (mt UInt32.lt_iff_toNat_lt.mpr behind)
    rcases reaches_of_progress (moving_forwards ahead fitsSrc) initial with ⟨last, run, finished⟩
    exact finished.ends ((entered.trans started).trans run)

/-! ## Calls one after the other -/

/-- On ranges that are apart the plain copy is a move. -/
theorem copyBytes_eq (memory : Memory) {dest src n : Nat} (apart : Apart dest src n) :
    copyBytes memory dest src n = moveRange memory dest src n := by
  have parts : dest + n ≤ src ∨ src + n ≤ dest := apart
  have copied : ∀ k, k ≤ n → copyBytes memory dest src k = moveRange memory dest src k := by
    intro k
    induction k with
    | zero => exact fun _ => (moveRange_zero memory dest src).symm
    | succ k ih =>
        intro inside
        rw [copyBytes, forUpTo_succ, ← copyBytes, ih (by omega)]
        exact moveRange_succ memory k (by omega)
  exact copied n (Nat.le_refl n)

/-- The plain stores are a fill with units of one byte. -/
theorem setBytes_eq (memory : Memory) (s : Nat) (c : UInt32) (n : Nat) :
    setBytes memory s (c &&& 0xFF).toUInt8 n = fillRange memory s 1 c n := by
  have low : (c &&& 0xFF).toUInt8 = byteOf c 0 := by
    rw [byteOf_zero]
    apply UInt8.toNat_inj.mp
    rw [UInt32.toNat_toUInt8, UInt32.toNat_toUInt8, UInt32.toNat_and]
    change (c.toNat &&& 2 ^ 8 - 1) % 256 = c.toNat % 256
    rw [Nat.and_two_pow_sub_one_eq_mod]
    exact Nat.mod_mod c.toNat 256
  have stores := forUpTo_update (fun _ => (c &&& 0xFF).toUInt8) memory s n
  simp only [Nat.add_comm _ s] at stores
  rw [setBytes, stores]
  funext address
  rw [fillRange, Nat.one_mul, Nat.mod_one, ← low]

/-- A call of one of the routines. -/
inductive MemoryCall
  | memset (s c n : UInt32)
  | memsetWord (s c n : UInt32)
  | memsetDword (s c n : UInt32)
  | memcpy (dest src n : UInt32)
  | memmove (dest src n : UInt32)

namespace MemoryCall

/-- What the code of the routine leaves, with the pointer it returns. -/
def run (machine : MoveCpu) : MemoryCall → Part (UInt32 × Cpu)
  | .memset s c n => Memory.memset machine.cpu s c n
  | .memsetWord s c n => (Memory.memsetWord machine s c n).map fun (s, after) => (s, after.cpu)
  | .memsetDword s c n => (Memory.memsetDword machine s c n).map fun (s, after) => (s, after.cpu)
  | .memcpy dest src n => Memory.memcpy machine.cpu dest src n
  | .memmove dest src n =>
      (Memory.memmove machine dest src n).map fun (dest, after) => (dest, after.cpu)

/-- The ranges lie in the address space; those of a copy are apart. -/
def Fits : MemoryCall → Prop
  | .memset s _ n => s.toNat + n.toNat ≤ 4294967296
  | .memsetWord s _ n => s.toNat + 2 * n.toNat ≤ 4294967296
  | .memsetDword s _ n => s.toNat + 4 * n.toNat ≤ 4294967296
  | .memcpy dest src n =>
      dest.toNat + n.toNat ≤ 4294967296 ∧ src.toNat + n.toNat ≤ 4294967296 ∧
        Apart dest.toNat src.toNat n.toNat
  | .memmove dest src n =>
      dest.toNat + n.toNat ≤ 4294967296 ∧ src.toNat + n.toNat ≤ 4294967296

instance : (call : MemoryCall) → Decidable call.Fits
  | .memset _ _ _ => inferInstanceAs (Decidable (_ ≤ _))
  | .memsetWord _ _ _ => inferInstanceAs (Decidable (_ ≤ _))
  | .memsetDword _ _ _ => inferInstanceAs (Decidable (_ ≤ _))
  | .memcpy _ _ _ => inferInstanceAs (Decidable (_ ∧ _ ∧ _))
  | .memmove _ _ _ => inferInstanceAs (Decidable (_ ∧ _))

/-- The pointer that the call hands over. -/
def pointer : MemoryCall → UInt32
  | .memset s _ _ => s
  | .memsetWord s _ _ => s
  | .memsetDword s _ _ => s
  | .memcpy dest _ _ => dest
  | .memmove dest _ _ => dest

/-- The operation on ranges that the call stands for. -/
def effect (memory : Memory) : MemoryCall → Memory
  | .memset s c n => fillRange memory s.toNat 1 c n.toNat
  | .memsetWord s c n => fillRange memory s.toNat 2 c n.toNat
  | .memsetDword s c n => fillRange memory s.toNat 4 c n.toNat
  | .memcpy dest src n => moveRange memory dest.toNat src.toNat n.toNat
  | .memmove dest src n => moveRange memory dest.toNat src.toNat n.toNat

/-- A call that fits ends with its operation done. -/
theorem ends {call : MemoryCall} (fits : call.Fits) (machine : MoveCpu) :
    ∃ after, (call.pointer, after) ∈ call.run machine ∧
      after.memory = call.effect machine.cpu.memory := by
  cases call with
  | memset s c n =>
      rcases memset_ends machine.cpu s c n fits with ⟨after, ended, stored⟩
      exact ⟨after, ended, stored.trans (setBytes_eq _ _ c _)⟩
  | memsetWord s c n =>
      rcases memsetWord_ends machine s c n fits with ⟨after, ended, stored⟩
      exact ⟨after.cpu, Part.mem_map _ ended, stored⟩
  | memsetDword s c n =>
      rcases memsetDword_ends machine s c n fits with ⟨after, ended, stored⟩
      exact ⟨after.cpu, Part.mem_map _ ended, stored⟩
  | memcpy dest src n =>
      rcases memcpy_ends machine.cpu dest src n fits.1 fits.2.1 fits.2.2 with
        ⟨after, ended, stored⟩
      exact ⟨after, ended, stored.trans (copyBytes_eq _ fits.2.2)⟩
  | memmove dest src n =>
      rcases memmove_ends machine dest src n fits.1 fits.2 with ⟨after, ended, stored⟩
      exact ⟨after.cpu, Part.mem_map _ ended, stored⟩

end MemoryCall

/-- Calls one after the other, with the pointers that they return.  What runs between
them changes registers and flags, and no memory. -/
inductive Calls : List MemoryCall → MoveCpu → List UInt32 → MoveCpu → Prop
  | nil (machine : MoveCpu) : Calls [] machine [] machine
  | cons {call : MemoryCall} {rest : List MemoryCall} {machine next target : MoveCpu}
      {pointer : UInt32} {pointers : List UInt32} {after : Cpu} :
      (pointer, after) ∈ call.run machine → next.cpu.memory = after.memory →
      Calls rest next pointers target →
      Calls (call :: rest) machine (pointer :: pointers) target

/-- Any number of calls whose ranges fit, from a processor in any state and with any
registers and flags left between them, ends.  Each returns the pointer that it was
given, and memory is left as the operations on ranges leave it one after the other;
overlapping ranges are moved whole. -/
theorem memoryCalls_act {calls : List MemoryCall} (fits : ∀ call ∈ calls, call.Fits)
    (machine : MoveCpu) :
    (∃ pointers target, Calls calls machine pointers target) ∧
      ∀ pointers target, Calls calls machine pointers target →
        pointers = calls.map MemoryCall.pointer ∧
          target.cpu.memory = calls.foldl MemoryCall.effect machine.cpu.memory := by
  induction calls generalizing machine with
  | nil =>
      refine ⟨⟨[], machine, .nil machine⟩, ?_⟩
      intro pointers target run
      cases run
      exact ⟨rfl, rfl⟩
  | cons call rest ih =>
      have restFits := fun later member => fits later (List.mem_cons_of_mem call member)
      rcases MemoryCall.ends (fits call List.mem_cons_self) machine with ⟨after, ended, stored⟩
      constructor
      · rcases (ih restFits { machine with cpu := after }).1 with ⟨pointers, target, run⟩
        exact ⟨_, target, .cons ended rfl run⟩
      · intro pointers target run
        cases run with
        | cons here same later =>
            have unique := Part.mem_unique here ended
            cases unique
            rcases (ih restFits _).2 _ target later with ⟨handed, left⟩
            rw [handed, left, same, stored]
            exact ⟨rfl, rfl⟩

/-- A move by two bytes within a range, one by one byte back, and a fill with a word. -/
def overlappingCalls : List MemoryCall :=
  [.memmove 0x1002 0x1000 6, .memmove 0x1000 0x1001 4, .memsetWord 0x1006 0xAABBCCDD 1]

/-- The processor starts with the direction flag set. -/
theorem memoryCalls_act_overlapping : ∃ target,
    Calls overlappingCalls ⟨countingCpu, false⟩ [0x1002, 0x1000, 0x1006] target ∧
      (List.range 10).map (fun i => target.cpu.memory (0x1000 + i)) =
        [1, 0, 1, 2, 2, 3, 0xDD, 0xCC, 8, 9] := by
  have fits : ∀ call ∈ overlappingCalls, call.Fits := by decide
  rcases memoryCalls_act fits ⟨countingCpu, false⟩ with ⟨⟨pointers, target, run⟩, acts⟩
  rcases acts pointers target run with ⟨handed, left⟩
  subst handed
  refine ⟨target, run, ?_⟩
  rw [left]
  decide

end PonyOS.Memory
