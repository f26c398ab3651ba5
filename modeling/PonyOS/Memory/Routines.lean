import PonyOS.Lib.Loop
import PonyOS.Lib.Stride
import PonyOS.Memory.Machine

/-!
# The memory routines

`memset` and `memcpy` go byte by byte until the destination is aligned, then in
words with a repeated string instruction, then byte by byte again.  On ranges that
do not wrap, and for a copy do not overlap, each leaves what the plain loop over
the bytes leaves.
-/

namespace PonyOS.Memory

open PonyOS.Interrupt (Register Registers)
open PonyOS.Lib.Loop
open PonyOS.Lib.Steps
open PonyOS.Lib.Stride
open PonyOS.Lib.Word
open StateTransition

/-! ## The code -/

/-- The code of `memset`: `.memset_top` is 0, `.memset_aligned` 8,
`.memset_bottom` 15 and `.memset_done` 21. -/
def memsetCode : List Instruction :=
  [ .testl (.register .ecx) .ecx
  , .jz 21
  , .testl (.immediate 3) .edi
  , .jz 8
  , .storeAl .edi
  , .addl 1 .edi
  , .subl 1 .ecx
  , .jmp 0
  , .movwDsDx
  , .movwDxEs
  , .movl .ecx .edx
  , .shrl 2 .ecx
  , .andl 3 .edx
  , .cld
  , .repStosl
  , .testl (.register .edx) .edx
  , .jz 21
  , .storeAl .edi
  , .addl 1 .edi
  , .subl 1 .edx
  , .jmp 15 ]

/-- The code of `memcpy`: `.memcpy_top` is 0, `.memcpy_aligned` 10,
`.memcpy_bottom` 17 and `.memcpy_done` 25. -/
def memcpyCode : List Instruction :=
  [ .testl (.register .ecx) .ecx
  , .jz 25
  , .testl (.immediate 3) .edi
  , .jz 10
  , .loadAl .esi
  , .storeAl .edi
  , .addl 1 .edi
  , .addl 1 .esi
  , .subl 1 .ecx
  , .jmp 0
  , .movwDsDx
  , .movwDxEs
  , .movl .ecx .edx
  , .shrl 2 .ecx
  , .andl 3 .edx
  , .cld
  , .repMovsl
  , .testl (.register .edx) .edx
  , .jz 25
  , .loadAl .esi
  , .storeAl .edi
  , .addl 1 .edi
  , .addl 1 .esi
  , .subl 1 .edx
  , .jmp 17 ]

/-- The word that `memset` stores: `c & 0xFF` in each byte. -/
def fillWord (c : UInt32) : UInt32 :=
  let c := c &&& 0xFF
  c <<< 24 ||| c <<< 16 ||| c <<< 8 ||| c

/-- `memset`, from a processor in any state, with the pointer it returns. -/
def memset (cpu : Cpu) (s c n : UInt32) : Part (UInt32 × Cpu) :=
  let entered := { cpu with
    pc := 0
    registers := { cpu.registers with eax := fillWord c, edi := s, ecx := n } }
  (eval (Cpu.step memsetCode) entered).map fun target => (s, target)

/-- `memcpy`, from a processor in any state, with the pointer it returns. -/
def memcpy (cpu : Cpu) (dest src n : UInt32) : Part (UInt32 × Cpu) :=
  let entered := { cpu with
    pc := 0
    registers := { cpu.registers with esi := src, edi := dest, ecx := n } }
  (eval (Cpu.step memcpyCode) entered).map fun target => (dest, target)

/-! ## The plain loops -/

/-- `for (i = 0; i < n; i++) s[i] = byte`. -/
def setBytes (memory : Memory) (s : Nat) (byte : UInt8) (n : Nat) : Memory :=
  forUpTo n (fun i memory => Function.update memory (s + i) byte) memory

/-- `for (i = 0; i < n; i++) dest[i] = src[i]`. -/
def copyBytes (memory : Memory) (dest src n : Nat) : Memory :=
  forUpTo n (fun i memory => Function.update memory (dest + i) (memory (src + i))) memory

/-- A loop that stores behind a pointer changes no byte outside its range. -/
theorem forUpTo_outside (byte : Nat → Memory → UInt8) (memory : Memory) (dest n : Nat)
    {address : Nat} (outside : address < dest ∨ dest + n ≤ address) :
    forUpTo n (fun i memory => Function.update memory (dest + i) (byte i memory)) memory address =
      memory address := by
  refine forUpTo_rule (fun _ (target : Memory) => target address = memory address) n rfl ?_
  intro i target inside same
  rw [Function.update_of_ne (by omega), same]

/-! ## Words and bytes -/

section Words

variable (first second third fourth : UInt8)

/-- A word by its bytes, the lowest first. -/
def ofBytes : UInt32 :=
  UInt32.ofNat (first.toNat + 256 * second.toNat + 65536 * third.toNat + 16777216 * fourth.toNat)

theorem ofBytes_toNat : (ofBytes first second third fourth).toNat =
    first.toNat + 256 * second.toNat + 65536 * third.toNat + 16777216 * fourth.toNat :=
  UInt32.toNat_ofNat_of_lt' (littleEndian_lt first second third fourth)

theorem ofBytes_bytes :
    (ofBytes first second third fourth).toUInt8 = first ∧
      (ofBytes first second third fourth >>> 8).toUInt8 = second ∧
      (ofBytes first second third fourth >>> 16).toUInt8 = third ∧
      (ofBytes first second third fourth >>> 24).toUInt8 = fourth := by
  have firstLt := first.toNat_lt
  have secondLt := second.toNat_lt
  have thirdLt := third.toNat_lt
  have fourthLt := fourth.toNat_lt
  have word := ofBytes_toNat first second third fourth
  refine ⟨?_, ?_, ?_, ?_⟩ <;> apply UInt8.toNat_inj.mp <;>
    simp only [UInt32.toNat_toUInt8, UInt32.toNat_shiftRight, word, Nat.shiftRight_eq_div_pow] <;>
    simp <;> omega

end Words

/-- A pointer moved on inside the address space. -/
theorem toNat_add_of_fits (address offset : UInt32) {place : Nat} (here : address.toNat = place)
    (fits : place + offset.toNat < 4294967296) :
    (address + offset).toNat = place + offset.toNat := by
  rw [UInt32.toNat_add, here]
  exact Nat.mod_eq_of_lt fits

/-- A pointer moved on, which wraps at the end of the address space. -/
theorem pointer_advances {pointer next offset : UInt32} {place i : Nat}
    (here : pointer.toNat = (place + i) % 4294967296) (moved : next = pointer + offset) :
    next.toNat = (place + (i + offset.toNat)) % 4294967296 := by
  rw [moved, UInt32.toNat_add, here, ← Nat.add_assoc]
  exact Nat.mod_add_mod (place + i) 4294967296 offset.toNat

/-- A word is stored byte by byte. -/
theorem storeLong_ofBytes (memory : Memory) {address : UInt32} {place : Nat}
    (here : address.toNat = place) (fits : place + 4 ≤ 4294967296)
    (first second third fourth : UInt8) :
    storeLong memory address (ofBytes first second third fourth) =
      Function.update
        (Function.update
          (Function.update (Function.update memory place first) (place + 1) second)
          (place + 2) third)
        (place + 3) fourth := by
  obtain ⟨firstEq, secondEq, thirdEq, fourthEq⟩ := ofBytes_bytes first second third fourth
  have secondPlace : (address + 1).toNat = place + 1 :=
    toNat_add_of_fits address 1 here (Nat.lt_of_lt_of_le (by simp) fits)
  have thirdPlace : (address + 2).toNat = place + 2 :=
    toNat_add_of_fits address 2 here (Nat.lt_of_lt_of_le (by simp) fits)
  have fourthPlace : (address + 3).toNat = place + 3 :=
    toNat_add_of_fits address 3 here (Nat.lt_of_lt_of_le (by simp) fits)
  simp only [storeLong, here, secondPlace, thirdPlace, fourthPlace, firstEq, secondEq, thirdEq,
    fourthEq]

/-- The word at an address is read byte by byte. -/
theorem loadLong_eq (memory : Memory) {address : UInt32} {place : Nat}
    (here : address.toNat = place) (fits : place + 4 ≤ 4294967296) :
    loadLong memory address =
      ofBytes (memory place) (memory (place + 1)) (memory (place + 2)) (memory (place + 3)) := by
  rw [loadLong, here, loadWord, load, load, load, load, Nat.mod_eq_of_lt (by omega),
    Nat.mod_eq_of_lt (by omega), Nat.mod_eq_of_lt (by omega), Nat.mod_eq_of_lt (by omega)]
  rfl

theorem fillWord_eq (c : UInt32) :
    fillWord c = ofBytes (c &&& 0xFF).toUInt8 (c &&& 0xFF).toUInt8 (c &&& 0xFF).toUInt8
      (c &&& 0xFF).toUInt8 := by
  have bytes : ∀ k < 256, fillWord (UInt32.ofNat k) = ofBytes (UInt8.ofNat k) (UInt8.ofNat k)
      (UInt8.ofNat k) (UInt8.ofNat k) := by
    decide +kernel
  have small : (c &&& 0xFF).toNat < 256 := by
    rw [UInt32.toNat_and]
    exact Nat.lt_succ_of_le Nat.and_le_right
  have masked : fillWord (c &&& 0xFF) = fillWord c := by
    simp only [fillWord, UInt32.and_assoc, UInt32.and_self]
  have filled := bytes (c &&& 0xFF).toNat small
  rw [UInt32.ofNat_toNat, masked] at filled
  exact filled

/-- What `movb` puts into `al` is what comes out. -/
theorem loadAl_eax (cpu : Cpu) (register : Register) :
    ((cpu.perform (.loadAl register)).get .eax).toUInt8 =
      cpu.memory (cpu.get register).toNat := by
  generalize byteEq : cpu.memory (cpu.get register).toNat = byte
  have byteLt := byte.toNat_lt
  have patched : (cpu.perform (.loadAl register)).get .eax =
      UInt32.ofNat (patchByte (cpu.get .eax).toNat 0 byte) := by
    rw [← byteEq]
    rfl
  rw [patched, UInt32.toUInt8_ofNat']
  apply UInt8.toNat_inj.mp
  rw [UInt8.toNat_ofNat']
  simp only [patchByte, pow_zero, Nat.div_one, Nat.mul_one]
  omega

/-! ## Counters -/

/-- The split of a count into words and bytes. -/
theorem count_split (count : UInt32) :
    (count >>> 2).toNat = count.toNat / 4 ∧ (count &&& 3).toNat = count.toNat % 4 := by
  constructor
  · rw [UInt32.toNat_shiftRight, Nat.shiftRight_eq_div_pow]
    rfl
  · rw [UInt32.toNat_and]
    exact Nat.and_two_pow_sub_one_eq_mod count.toNat 2

theorem count_pred {count : UInt32} {left : Nat} (counted : count.toNat = left + 1) :
    count ≠ 0 ∧ (count - 1).toNat = left := by
  have positive : 1 ≤ count := by
    rw [UInt32.le_iff_toNat_le, counted]
    exact Nat.le_add_left 1 left
  constructor
  · rintro rfl
    contradiction
  · rw [UInt32.toNat_sub_of_le _ _ positive, counted]
    rfl

theorem count_zero {count : UInt32} (counted : count.toNat = 0) : count = 0 :=
  UInt32.toNat_inj.mp counted

/-! ## The loops of a routine -/

/-- The instructions that the two routines have in common, by the places of
`aligned` and `done`. -/
structure Shape (code : List Instruction) (aligned done : Nat) : Prop where
  topTest : code[0]? = some (.testl (.register .ecx) .ecx)
  topJump : code[1]? = some (.jz done)
  boundaryTest : code[2]? = some (.testl (.immediate 3) .edi)
  boundaryJump : code[3]? = some (.jz aligned)
  movwDsDx : code[aligned]? = some .movwDsDx
  movwDxEs : code[aligned + 1]? = some .movwDxEs
  movl : code[aligned + 2]? = some (.movl .ecx .edx)
  shrl : code[aligned + 3]? = some (.shrl 2 .ecx)
  andl : code[aligned + 4]? = some (.andl 3 .edx)
  cld : code[aligned + 5]? = some .cld
  bottomTest : code[aligned + 7]? = some (.testl (.register .edx) .edx)
  bottomJump : code[aligned + 8]? = some (.jz done)

namespace Shape

variable {code : List Instruction} {aligned done : Nat} {cpu : Cpu}

theorem topDone (shape : Shape code aligned done) (here : cpu.pc = 0)
    (spent : cpu.registers.ecx = 0) :
    Reaches (Cpu.step code) cpu { cpu with pc := done, zf := true } := by
  obtain ⟨pc, registers, ds, es, zf, df, memory⟩ := cpu
  obtain rfl : pc = 0 := here
  refine Cpu.test_jumps shape.topTest shape.topJump ?_
  exact (UInt32.and_self).trans spent

theorem topByte (shape : Shape code aligned done) (here : cpu.pc = 0)
    (left : cpu.registers.ecx ≠ 0) (before : 3 &&& cpu.registers.edi ≠ 0) :
    Reaches (Cpu.step code) cpu { cpu with pc := 4, zf := false } := by
  obtain ⟨pc, registers, ds, es, zf, df, memory⟩ := cpu
  obtain rfl : pc = 0 := here
  have counted : registers.ecx &&& registers.ecx ≠ 0 := by rwa [UInt32.and_self]
  have first : Reaches (Cpu.step code) ⟨0, registers, ds, es, zf, df, memory⟩
      ⟨2, registers, ds, es, false, df, memory⟩ :=
    Cpu.test_falls shape.topTest shape.topJump counted
  exact first.trans (Cpu.test_falls shape.boundaryTest shape.boundaryJump before)

theorem topAligned (shape : Shape code aligned done) (here : cpu.pc = 0)
    (left : cpu.registers.ecx ≠ 0) (boundary : 3 &&& cpu.registers.edi = 0) :
    ∃ es zf, Reaches (Cpu.step code) cpu
      { cpu with
        pc := aligned + 6
        es := es
        zf := zf
        df := false
        registers := { cpu.registers with
          ecx := cpu.registers.ecx >>> 2, edx := cpu.registers.ecx &&& 3 } } := by
  obtain ⟨pc, registers, ds, es, zf, df, memory⟩ := cpu
  obtain rfl : pc = 0 := here
  have counted : registers.ecx &&& registers.ecx ≠ 0 := by rwa [UInt32.and_self]
  have first : Reaches (Cpu.step code) ⟨0, registers, ds, es, zf, df, memory⟩
      ⟨2, registers, ds, es, false, df, memory⟩ :=
    Cpu.test_falls shape.topTest shape.topJump counted
  have second : Reaches (Cpu.step code) ⟨2, registers, ds, es, false, df, memory⟩
      ⟨aligned, registers, ds, es, true, df, memory⟩ :=
    Cpu.test_jumps shape.boundaryTest shape.boundaryJump boundary
  obtain ⟨edx, es, third⟩ : ∃ edx newEs, Reaches (Cpu.step code)
      ⟨aligned, registers, ds, es, true, df, memory⟩
      ⟨aligned + 2, { registers with edx := edx }, ds, newEs, true, df, memory⟩ :=
    Cpu.segment_copied shape.movwDsDx shape.movwDxEs
  have fourth : Reaches (Cpu.step code)
      ⟨aligned + 2, { registers with edx := edx }, ds, es, true, df, memory⟩
      ⟨aligned + 3, { registers with edx := registers.ecx }, ds, es, true, df, memory⟩ :=
    Cpu.performs shape.movl rfl
  have fifth : Reaches (Cpu.step code)
      ⟨aligned + 3, { registers with edx := registers.ecx }, ds, es, true, df, memory⟩
      ⟨aligned + 4, { registers with ecx := registers.ecx >>> 2, edx := registers.ecx }, ds, es,
        registers.ecx >>> 2 = 0, df, memory⟩ :=
    Cpu.performs shape.shrl (by rw [Cpu.perform, if_neg (by decide)]; rfl)
  have sixth : Reaches (Cpu.step code)
      ⟨aligned + 4, { registers with ecx := registers.ecx >>> 2, edx := registers.ecx }, ds, es,
        registers.ecx >>> 2 = 0, df, memory⟩
      ⟨aligned + 5, { registers with ecx := registers.ecx >>> 2, edx := registers.ecx &&& 3 },
        ds, es, registers.ecx &&& 3 = 0, df, memory⟩ :=
    Cpu.performs shape.andl rfl
  have seventh : Reaches (Cpu.step code)
      ⟨aligned + 5, { registers with ecx := registers.ecx >>> 2, edx := registers.ecx &&& 3 },
        ds, es, registers.ecx &&& 3 = 0, df, memory⟩
      ⟨aligned + 6, { registers with ecx := registers.ecx >>> 2, edx := registers.ecx &&& 3 },
        ds, es, registers.ecx &&& 3 = 0, false, memory⟩ :=
    Cpu.performs shape.cld rfl
  exact ⟨es, registers.ecx &&& 3 = 0, (first.trans (second.trans third)).trans
    (fourth.trans (fifth.trans (sixth.trans seventh)))⟩

theorem bottomDone (shape : Shape code aligned done) (here : cpu.pc = aligned + 7)
    (spent : cpu.registers.edx = 0) :
    Reaches (Cpu.step code) cpu { cpu with pc := done, zf := true } := by
  obtain ⟨pc, registers, ds, es, zf, df, memory⟩ := cpu
  obtain rfl : pc = aligned + 7 := here
  refine Cpu.test_jumps shape.bottomTest shape.bottomJump ?_
  exact (UInt32.and_self).trans spent

theorem bottomByte (shape : Shape code aligned done) (here : cpu.pc = aligned + 7)
    (left : cpu.registers.edx ≠ 0) :
    Reaches (Cpu.step code) cpu { cpu with pc := aligned + 9, zf := false } := by
  obtain ⟨pc, registers, ds, es, zf, df, memory⟩ := cpu
  obtain rfl : pc = aligned + 7 := here
  have counted : registers.edx &&& registers.edx ≠ 0 := by rwa [UInt32.and_self]
  exact Cpu.test_falls shape.bottomTest shape.bottomJump counted

end Shape

/-- A routine of that shape by what its own instructions do: how far it got does
not depend on counters and flags, the bytes behind the two tests handle one byte
each, and the string instruction handles four. -/
structure Routine (code : List Instruction) (aligned done n : Nat)
    (progress : Nat → Cpu → Prop) : Prop extends Shape code aligned done where
  kept : ∀ {i : Nat} {cpu target : Cpu}, progress i cpu →
    target.registers.eax = cpu.registers.eax → target.registers.esi = cpu.registers.esi →
    target.registers.edi = cpu.registers.edi → target.memory = cpu.memory → progress i target
  byte : ∀ {i : Nat} {cpu : Cpu}, i < n → cpu.pc = 4 → progress i cpu →
    ∃ target, Reaches (Cpu.step code) cpu target ∧ target.pc = 0 ∧
      target.registers.ecx = cpu.registers.ecx - 1 ∧ progress (i + 1) target
  word : ∀ {i : Nat} {cpu : Cpu}, i + 4 ≤ n → cpu.pc = aligned + 6 → cpu.df = false →
    cpu.registers.ecx ≠ 0 → progress i cpu →
    ∃ target, Reaches (Cpu.step code) cpu target ∧ target.pc = aligned + 6 ∧
      target.df = false ∧ target.registers.ecx = cpu.registers.ecx - 1 ∧
      target.registers.edx = cpu.registers.edx ∧ progress (i + 4) target
  wordsDone : ∀ {cpu : Cpu}, cpu.pc = aligned + 6 → cpu.registers.ecx = 0 →
    Reaches (Cpu.step code) cpu { cpu with pc := aligned + 7 }
  tail : ∀ {i : Nat} {cpu : Cpu}, i < n → cpu.pc = aligned + 9 → progress i cpu →
    ∃ target, Reaches (Cpu.step code) cpu target ∧ target.pc = aligned + 7 ∧
      target.registers.edx = cpu.registers.edx - 1 ∧ progress (i + 1) target

/-- What holds at the tests of a routine. -/
def phases (aligned done n : Nat) (progress : Nat → Cpu → Prop) : Phases Cpu where
  top i cpu := cpu.pc = 0 ∧ cpu.registers.ecx.toNat = n - i ∧ progress i cpu
  block i blocks units cpu :=
    cpu.pc = aligned + 6 ∧ cpu.df = false ∧ cpu.registers.ecx.toNat = blocks ∧
      cpu.registers.edx.toNat = units ∧ progress i cpu
  bottom i units cpu :=
    cpu.pc = aligned + 7 ∧ cpu.registers.edx.toNat = units ∧ progress i cpu
  done i cpu := cpu.pc = done ∧ progress i cpu

/-- One turn of each of its loops. -/
theorem Routine.turns {code : List Instruction} {aligned done n : Nat}
    {progress : Nat → Cpu → Prop} (routine : Routine code aligned done n progress) :
    Turns (Cpu.step code) (phases aligned done n progress) 4 n := by
  constructor
  · rintro i cpu inside ⟨here, counted, made⟩
    obtain ⟨left, counter⟩ : cpu.registers.ecx ≠ 0 ∧
        (cpu.registers.ecx - 1).toNat = n - (i + 1) := count_pred (by omega)
    by_cases boundary : 3 &&& cpu.registers.edi = 0
    · obtain ⟨es, zf, run⟩ := routine.topAligned here left boundary
      obtain ⟨words, units⟩ := count_split cpu.registers.ecx
      rw [counted] at words units
      exact ⟨_, run, .inr ⟨rfl, rfl, words, units, routine.kept made rfl rfl rfl rfl⟩⟩
    · have tested := routine.topByte here left boundary
      have moved : progress i { cpu with pc := 4, zf := false } :=
        routine.kept made rfl rfl rfl rfl
      obtain ⟨target, run, back, ecx, further⟩ := routine.byte inside rfl moved
      refine ⟨target, tested.trans run, .inl ⟨back, ?_, further⟩⟩
      rw [ecx]
      exact counter
  · rintro cpu ⟨here, counted, made⟩
    exact ⟨_, routine.topDone here (count_zero (by omega)), rfl,
      routine.kept made rfl rfl rfl rfl⟩
  · rintro i blocks units cpu total ⟨here, forward, counted, rest, made⟩
    obtain ⟨left, counter⟩ := count_pred counted
    obtain ⟨target, run, again, stays, ecx, edx, further⟩ :=
      routine.word (by omega) here forward left made
    refine ⟨target, run, again, stays, ?_, ?_, further⟩
    · rw [ecx, counter]
    · rw [edx, rest]
  · rintro i units cpu total ⟨here, forward, counted, rest, made⟩
    exact ⟨_, routine.wordsDone here (count_zero counted), rfl, rest,
      routine.kept made rfl rfl rfl rfl⟩
  · rintro i units cpu total ⟨here, counted, made⟩
    obtain ⟨left, counter⟩ := count_pred counted
    have tested := routine.bottomByte here left
    have moved : progress i { cpu with pc := aligned + 9, zf := false } :=
      routine.kept made rfl rfl rfl rfl
    obtain ⟨target, run, back, edx, further⟩ := routine.tail (by omega) rfl moved
    refine ⟨target, tested.trans run, back, ?_, further⟩
    rw [edx]
    exact counter
  · rintro cpu ⟨here, counted, made⟩
    exact ⟨_, routine.bottomDone here (count_zero counted), rfl,
      routine.kept made rfl rfl rfl rfl⟩

/-! ## `memset` -/

/-- `memset` with `i` bytes set. -/
structure Setting (memory : Memory) (s c : UInt32) (i : Nat) (cpu : Cpu) : Prop where
  eax : cpu.registers.eax = fillWord c
  edi : cpu.registers.edi.toNat = (s.toNat + i) % 4294967296
  stored : cpu.memory = setBytes memory s.toNat (c &&& 0xFF).toUInt8 i

namespace Setting

variable {memory : Memory} {s c : UInt32} {i : Nat} {cpu target : Cpu}

theorem byte (setting : Setting memory s c i cpu) (inside : s.toNat + i < 4294967296)
    (eax : target.registers.eax = cpu.registers.eax)
    (edi : target.registers.edi = cpu.registers.edi + 1)
    (stored : target.memory =
      Function.update cpu.memory cpu.registers.edi.toNat cpu.registers.eax.toUInt8) :
    Setting memory s c (i + 1) target where
  eax := eax.trans setting.eax
  edi := pointer_advances setting.edi edi
  stored := by
    have low : (fillWord c).toUInt8 = (c &&& 0xFF).toUInt8 := by
      rw [fillWord_eq]
      exact (ofBytes_bytes _ _ _ _).1
    rw [stored, setting.stored, setting.edi, Nat.mod_eq_of_lt inside, setting.eax, low]
    rfl

theorem word (setting : Setting memory s c i cpu) (inside : s.toNat + i + 4 ≤ 4294967296)
    (eax : target.registers.eax = cpu.registers.eax)
    (edi : target.registers.edi = cpu.registers.edi + 4)
    (stored : target.memory =
      storeLong cpu.memory cpu.registers.edi cpu.registers.eax) :
    Setting memory s c (i + 4) target where
  eax := eax.trans setting.eax
  edi := pointer_advances setting.edi edi
  stored := by
    have here : cpu.registers.edi.toNat = s.toNat + i := by
      rw [setting.edi]
      exact Nat.mod_eq_of_lt (by omega)
    rw [stored, setting.stored, setting.eax, fillWord_eq, storeLong_ofBytes _ here inside]
    rfl

end Setting

theorem memset_shape : Shape memsetCode 8 21 := by
  constructor <;> rfl

/-- `memset` is such a routine. -/
theorem memset_routine (memory : Memory) (s c : UInt32) {n : Nat}
    (fits : s.toNat + n ≤ 4294967296) : Routine memsetCode 8 21 n (Setting memory s c) where
  toShape := memset_shape
  kept := by
    intro i cpu target made eax _ edi same
    exact ⟨eax.trans made.eax, by rw [edi, made.edi], same.trans made.stored⟩
  byte := by
    rintro i ⟨pc, registers, ds, es, zf, df, memory⟩ inside here made
    obtain rfl : pc = 4 := here
    refine ⟨_, reaches_of_steps (n := 4) rfl, rfl, rfl, ?_⟩
    exact made.byte (by omega) rfl rfl rfl
  word := by
    rintro i ⟨pc, registers, ds, es, zf, df, memory⟩ inside here forward left made
    obtain rfl : pc = 14 := here
    obtain rfl : df = false := forward
    refine ⟨_, Cpu.performs rfl (if_neg left), rfl, rfl, rfl, rfl, ?_⟩
    exact made.word (by omega) rfl rfl rfl
  wordsDone := by
    rintro ⟨pc, registers, ds, es, zf, df, memory⟩ here spent
    obtain rfl : pc = 14 := here
    exact Cpu.performs rfl (if_pos spent)
  tail := by
    rintro i ⟨pc, registers, ds, es, zf, df, memory⟩ inside here made
    obtain rfl : pc = 17 := here
    refine ⟨_, reaches_of_steps (n := 4) rfl, rfl, rfl, ?_⟩
    exact made.byte (by omega) rfl rfl rfl

/-! ## `memcpy` -/

/-- The two ranges of a copy have no address in common. -/
def Apart (dest src n : Nat) : Prop :=
  dest + n ≤ src ∨ src + n ≤ dest

instance (dest src n : Nat) : Decidable (Apart dest src n) :=
  inferInstanceAs (Decidable (_ ∨ _))

/-- Four bytes read before they are stored are copied as if one by one, the ranges
being apart. -/
theorem copyBytes_word (memory : Memory) {dest src n i : Nat} (apart : Apart dest src n)
    (inside : i + 4 ≤ n) {before : Memory} (copied : before = copyBytes memory dest src i) :
    Function.update
      (Function.update
        (Function.update (Function.update before (dest + i) (before (src + i)))
          (dest + i + 1) (before (src + i + 1)))
        (dest + i + 2) (before (src + i + 2)))
      (dest + i + 3) (before (src + i + 3)) = copyBytes memory dest src (i + 4) := by
  have parts : dest + n ≤ src ∨ src + n ≤ dest := apart
  rw [copyBytes] at copied
  rw [copyBytes]
  simp only [forUpTo_succ, ← copied, ← Nat.add_assoc]
  rw [Function.update_of_ne (show src + i + 1 ≠ dest + i by omega),
    Function.update_of_ne (show src + i + 2 ≠ dest + i + 1 by omega),
    Function.update_of_ne (show src + i + 2 ≠ dest + i by omega),
    Function.update_of_ne (show src + i + 3 ≠ dest + i + 2 by omega),
    Function.update_of_ne (show src + i + 3 ≠ dest + i + 1 by omega),
    Function.update_of_ne (show src + i + 3 ≠ dest + i by omega)]

/-- `memcpy` with `i` bytes copied. -/
structure Copying (memory : Memory) (dest src : UInt32) (i : Nat) (cpu : Cpu) : Prop where
  esi : cpu.registers.esi.toNat = (src.toNat + i) % 4294967296
  edi : cpu.registers.edi.toNat = (dest.toNat + i) % 4294967296
  stored : cpu.memory = copyBytes memory dest.toNat src.toNat i

namespace Copying

variable {memory : Memory} {dest src : UInt32} {n i : Nat} {cpu target : Cpu}

theorem byte (copying : Copying memory dest src i cpu) (fitsDest : dest.toNat + i < 4294967296)
    (fitsSrc : src.toNat + i < 4294967296)
    (esi : target.registers.esi = cpu.registers.esi + 1)
    (edi : target.registers.edi = cpu.registers.edi + 1)
    (stored : target.memory =
      Function.update cpu.memory cpu.registers.edi.toNat
        (cpu.memory cpu.registers.esi.toNat)) :
    Copying memory dest src (i + 1) target where
  esi := pointer_advances copying.esi esi
  edi := pointer_advances copying.edi edi
  stored := by
    rw [stored, copying.stored, copying.edi, copying.esi, Nat.mod_eq_of_lt fitsDest,
      Nat.mod_eq_of_lt fitsSrc]
    rfl

theorem word (copying : Copying memory dest src i cpu)
    (apart : Apart dest.toNat src.toNat n) (inside : i + 4 ≤ n)
    (fitsDest : dest.toNat + i + 4 ≤ 4294967296) (fitsSrc : src.toNat + i + 4 ≤ 4294967296)
    (esi : target.registers.esi = cpu.registers.esi + 4)
    (edi : target.registers.edi = cpu.registers.edi + 4)
    (stored : target.memory =
      storeLong cpu.memory cpu.registers.edi (loadLong cpu.memory cpu.registers.esi)) :
    Copying memory dest src (i + 4) target where
  esi := pointer_advances copying.esi esi
  edi := pointer_advances copying.edi edi
  stored := by
    have there : cpu.registers.esi.toNat = src.toNat + i := by
      rw [copying.esi]
      exact Nat.mod_eq_of_lt (by omega)
    have here : cpu.registers.edi.toNat = dest.toNat + i := by
      rw [copying.edi]
      exact Nat.mod_eq_of_lt (by omega)
    rw [stored, loadLong_eq _ there fitsSrc, storeLong_ofBytes _ here fitsDest]
    exact copyBytes_word memory apart inside copying.stored

end Copying

theorem memcpy_shape : Shape memcpyCode 10 25 := by
  constructor <;> rfl

/-- `memcpy` is such a routine. -/
theorem memcpy_routine (memory : Memory) (dest src : UInt32) {n : Nat}
    (fitsDest : dest.toNat + n ≤ 4294967296) (fitsSrc : src.toNat + n ≤ 4294967296)
    (apart : Apart dest.toNat src.toNat n) :
    Routine memcpyCode 10 25 n (Copying memory dest src) where
  toShape := memcpy_shape
  kept := by
    intro i cpu target made _ esi edi same
    exact ⟨by rw [esi, made.esi], by rw [edi, made.edi], same.trans made.stored⟩
  byte := by
    rintro i ⟨pc, registers, ds, es, zf, df, memory⟩ inside here made
    obtain rfl : pc = 4 := here
    refine ⟨_, reaches_of_steps (n := 6) rfl, rfl, rfl, ?_⟩
    refine made.byte (by omega) (by omega) rfl rfl ?_
    exact congrArg (Function.update memory registers.edi.toNat) (loadAl_eax _ .esi)
  word := by
    rintro i ⟨pc, registers, ds, es, zf, df, memory⟩ inside here forward left made
    obtain rfl : pc = 16 := here
    obtain rfl : df = false := forward
    refine ⟨_, Cpu.performs rfl (if_neg left), rfl, rfl, rfl, rfl, ?_⟩
    exact made.word apart inside (by omega) (by omega) rfl rfl rfl
  wordsDone := by
    rintro ⟨pc, registers, ds, es, zf, df, memory⟩ here spent
    obtain rfl : pc = 16 := here
    exact Cpu.performs rfl (if_pos spent)
  tail := by
    rintro i ⟨pc, registers, ds, es, zf, df, memory⟩ inside here made
    obtain rfl : pc = 19 := here
    refine ⟨_, reaches_of_steps (n := 6) rfl, rfl, rfl, ?_⟩
    refine made.byte (by omega) (by omega) rfl rfl ?_
    exact congrArg (Function.update memory registers.edi.toNat) (loadAl_eax _ .esi)

/-! ## The routines as a whole -/

/-- A routine of that shape ends behind its code, with everything handled. -/
theorem Routine.ends {code : List Instruction} {aligned n : Nat} {progress : Nat → Cpu → Prop}
    (routine : Routine code aligned code.length n progress) {cpu : Cpu} (made : progress 0 cpu)
    (here : cpu.pc = 0) (counted : cpu.registers.ecx.toNat = n) :
    ∃ target ∈ eval (Cpu.step code) cpu, progress n target := by
  have entered : (phases aligned code.length n progress).top 0 cpu := ⟨here, counted, made⟩
  rcases routine.turns.run (Nat.zero_le n) entered with ⟨target, run, behind, finished⟩
  refine ⟨target, mem_eval.mpr ⟨run, ?_⟩, finished⟩
  rw [Cpu.step, behind, List.getElem?_length]
  rfl

/-- `memset` ends with its bytes set. -/
theorem memset_ends (cpu : Cpu) (s c n : UInt32) (fits : s.toNat + n.toNat ≤ 4294967296) :
    ∃ target, (s, target) ∈ memset cpu s c n ∧
      target.memory = setBytes cpu.memory s.toNat (c &&& 0xFF).toUInt8 n.toNat := by
  have entered : Setting cpu.memory s c 0 { cpu with
      pc := 0
      registers := { cpu.registers with eax := fillWord c, edi := s, ecx := n } } :=
    ⟨rfl, (Nat.mod_eq_of_lt s.toNat_lt).symm, rfl⟩
  rcases (memset_routine cpu.memory s c fits).ends entered rfl rfl with
    ⟨target, ended, finished⟩
  exact ⟨target, Part.mem_map _ ended, finished.stored⟩

/-- `memcpy` ends with its bytes copied. -/
theorem memcpy_ends (cpu : Cpu) (dest src n : UInt32)
    (fitsDest : dest.toNat + n.toNat ≤ 4294967296)
    (fitsSrc : src.toNat + n.toNat ≤ 4294967296)
    (apart : Apart dest.toNat src.toNat n.toNat) :
    ∃ target, (dest, target) ∈ memcpy cpu dest src n ∧
      target.memory = copyBytes cpu.memory dest.toNat src.toNat n.toNat := by
  have entered : Copying cpu.memory dest src 0 { cpu with
      pc := 0
      registers := { cpu.registers with esi := src, edi := dest, ecx := n } } :=
    ⟨(Nat.mod_eq_of_lt src.toNat_lt).symm, (Nat.mod_eq_of_lt dest.toNat_lt).symm, rfl⟩
  rcases (memcpy_routine cpu.memory dest src fitsDest fitsSrc apart).ends entered rfl rfl with
    ⟨target, ended, finished⟩
  exact ⟨target, Part.mem_map _ ended, finished.stored⟩

/-- Memory keeps every byte outside a range. -/
def KeptOutside (before after : Memory) (start n : Nat) : Prop :=
  ∀ address, address < start ∨ start + n ≤ address → after address = before address

/-- On a range that does not wrap `memset` ends, and leaves memory exactly as stores
of `c & 0xFF` to its bytes do; on ranges that also do not overlap `memcpy` ends, and
leaves memory exactly as a copy of the bytes one by one does.  Neither changes a
byte outside its destination. -/
theorem memoryRoutines_equal_byteLoops (cpu : Cpu) (dest src c n : UInt32)
    (fitsDest : dest.toNat + n.toNat ≤ 4294967296) :
    (∃ target, (dest, target) ∈ memset cpu dest c n ∧
      target.memory = setBytes cpu.memory dest.toNat (c &&& 0xFF).toUInt8 n.toNat ∧
      KeptOutside cpu.memory target.memory dest.toNat n.toNat) ∧
    (src.toNat + n.toNat ≤ 4294967296 → Apart dest.toNat src.toNat n.toNat →
      ∃ target, (dest, target) ∈ memcpy cpu dest src n ∧
        target.memory = copyBytes cpu.memory dest.toNat src.toNat n.toNat ∧
        KeptOutside cpu.memory target.memory dest.toNat n.toNat) := by
  constructor
  · rcases memset_ends cpu dest c n fitsDest with ⟨target, ended, stored⟩
    refine ⟨target, ended, stored, ?_⟩
    intro address outside
    rw [stored]
    exact forUpTo_outside (fun _ _ => (c &&& 0xFF).toUInt8) cpu.memory dest.toNat n.toNat outside
  · intro fitsSrc apart
    rcases memcpy_ends cpu dest src n fitsDest fitsSrc apart with ⟨target, ended, stored⟩
    refine ⟨target, ended, stored, ?_⟩
    intro address outside
    rw [stored]
    exact forUpTo_outside (fun i memory => memory (src.toNat + i)) cpu.memory dest.toNat n.toNat
      outside

/-- A processor whose direction flag is set and whose memory counts its addresses. -/
def countingCpu : Cpu where
  pc := 0
  registers := ⟨0, 0, 0, 0, 0, 0, 0⟩
  ds := 0x18
  es := 0
  zf := false
  df := true
  memory := UInt8.ofNat

/-- Eleven bytes at an address that is not aligned: one byte up to the boundary, two
words and two bytes. -/
theorem memoryRoutines_equal_byteLoops_unaligned :
    (∃ target, (0x1003, target) ∈ memset countingCpu 0x1003 0x1AB 11 ∧
      (List.range 13).map (fun i => target.memory (0x1002 + i)) =
        [2, 0xAB, 0xAB, 0xAB, 0xAB, 0xAB, 0xAB, 0xAB, 0xAB, 0xAB, 0xAB, 0xAB, 14]) ∧
    (∃ target, (0x1003, target) ∈ memcpy countingCpu 0x1003 0x2041 11 ∧
      (List.range 13).map (fun i => target.memory (0x1002 + i)) =
        [2, 0x41, 0x42, 0x43, 0x44, 0x45, 0x46, 0x47, 0x48, 0x49, 0x4A, 0x4B, 14]) := by
  rcases memoryRoutines_equal_byteLoops countingCpu 0x1003 0x2041 0x1AB 11 (by decide) with
    ⟨⟨filled, setEnded, set, -⟩, copies⟩
  rcases copies (by decide) (by decide) with ⟨copied, copyEnded, copy, -⟩
  refine ⟨⟨filled, setEnded, ?_⟩, copied, copyEnded, ?_⟩
  · rw [set]
    decide
  · rw [copy]
    decide

end PonyOS.Memory
