import Mathlib.Algebra.Group.Nat.Defs
import Mathlib.Data.List.Basic
import Mathlib.Data.List.Induction
import Mathlib.Data.Nat.Basic
import Mathlib.Logic.Function.Basic

/-!
# Thirty-two bit words over byte memory

Unsigned words are naturals taken modulo `2 ^ 32`; signed words are integers
folded back into `[-2 ^ 31, 2 ^ 31)`.  Memory is a total map from addresses to
bytes, and every access reduces its address modulo `2 ^ 32`, so pointer
arithmetic needs no reductions of its own.
-/

namespace PonyOS.Lib.Word

/-- Conversion of an integer to `uint32_t`. -/
def uint32 (value : Int) : Nat :=
  (value % 4294967296).toNat

/-- Conversion of an integer to `int32_t`. -/
def int32 (value : Int) : Int :=
  (value + 2147483648) % 4294967296 - 2147483648

theorem int32_lt (value : Int) : int32 value < 2147483648 := by
  unfold int32
  omega

theorem uint32_of_lt {value : Nat} (small : value < 4294967296) :
    uint32 value = value := by
  unfold uint32
  omega

theorem int32_of_lt {value : Nat} (small : value < 2147483648) :
    int32 value = value := by
  unfold int32
  omega

theorem int32_sub {a b : Nat} (aLt : a < 4294967296) (bLt : b < 4294967296) :
    int32 ((a : Int) - b) =
      if a + 2147483648 < b then (a : Int) - b + 4294967296
      else if b + 2147483648 ≤ a then (a : Int) - b - 4294967296
      else (a : Int) - b := by
  unfold int32
  by_cases under : a + 2147483648 < b
  · rw [if_pos under]
    omega
  · rw [if_neg under]
    by_cases above : b + 2147483648 ≤ a
    · rw [if_pos above]
      omega
    · rw [if_neg above]
      omega

/-- Byte-addressed memory. -/
abbrev Memory := Nat → UInt8

/-- One byte of memory at an address taken modulo `2 ^ 32`. -/
def load (memory : Memory) (address : Nat) : UInt8 :=
  memory (address % 4294967296)

/-- The little-endian word at an address. -/
def loadWord (memory : Memory) (address : Nat) : Nat :=
  (load memory address).toNat + 256 * (load memory (address + 1)).toNat +
    65536 * (load memory (address + 2)).toNat +
    16777216 * (load memory (address + 3)).toNat

/-- Four bytes make a word, the lowest first. -/
theorem littleEndian_lt (first second third fourth : UInt8) :
    first.toNat + 256 * second.toNat + 65536 * third.toNat + 16777216 * fourth.toNat <
      4294967296 := by
  have firstLt := first.toNat_lt
  have secondLt := second.toNat_lt
  have thirdLt := third.toNat_lt
  have fourthLt := fourth.toNat_lt
  omega

theorem loadWord_lt (memory : Memory) (address : Nat) : loadWord memory address < 4294967296 :=
  littleEndian_lt _ _ _ _

/-- The `count` bytes of memory from an address on. -/
def bytesAt (memory : Memory) (address count : Nat) : List UInt8 :=
  (List.range count).map fun i => load memory (address + i)

@[simp]
theorem bytesAt_length (memory : Memory) (address count : Nat) :
    (bytesAt memory address count).length = count := by
  simp [bytesAt]

/-- Little-endian replacement of byte `index` of a word. -/
def patchByte (word index : Nat) (byte : UInt8) : Nat :=
  word - word / 256 ^ index % 256 * 256 ^ index + byte.toNat * 256 ^ index

/-- A single byte store. -/
structure Store where
  address : Nat
  byte : UInt8
  deriving DecidableEq

/-- The stores of consecutive bytes from a destination on. -/
def storesAt (dest : Nat) (bytes : List UInt8) : List Store :=
  bytes.zipIdx.map fun entry =>
    { address := (dest + entry.2) % 4294967296, byte := entry.1 }

@[simp]
theorem storesAt_nil (dest : Nat) : storesAt dest [] = [] :=
  rfl

@[simp]
theorem storesAt_length (dest : Nat) (bytes : List UInt8) :
    (storesAt dest bytes).length = bytes.length := by
  simp [storesAt]

theorem storesAt_append (dest : Nat) (first second : List UInt8) :
    storesAt dest (first ++ second) =
      storesAt dest first ++ storesAt (dest + first.length) second := by
  simp only [storesAt, List.zipIdx_append, List.map_append, Nat.zero_add]
  congr 1
  rw [List.zipIdx_eq_map_add, List.map_map]
  congr 1
  funext entry
  simp only [Function.comp_apply]
  congr 2
  omega

/-- The addresses written by consecutive stores. -/
theorem mem_storesAt_address {dest : Nat} {bytes : List UInt8} {address : Nat} :
    (∃ store ∈ storesAt dest bytes, store.address = address) ↔
      ∃ i < bytes.length, (dest + i) % 4294967296 = address := by
  simp only [storesAt, List.mem_map]
  constructor
  · rintro ⟨_, ⟨⟨byte, i⟩, member, rfl⟩, rfl⟩
    have bound := List.snd_lt_of_mem_zipIdx member
    exact ⟨i, by simpa using bound, rfl⟩
  · rintro ⟨i, bound, rfl⟩
    refine ⟨_, ⟨(bytes[i], i), ?_, rfl⟩, rfl⟩
    rw [List.mem_zipIdx_iff_getElem?]
    simp [bound]

/-- What consecutive stores leave at an address: the byte stored there, or what
was there before. -/
theorem foldl_storesAt (memory : Memory) (dest : Nat) (bytes : List UInt8)
    (short : bytes.length ≤ 4294967296) {i : Nat} (inside : i < 4294967296) :
    (storesAt dest bytes).foldl
        (fun memory store => Function.update memory store.address store.byte) memory
        ((dest + i) % 4294967296) =
      if i < bytes.length then bytes.getD i 0 else memory ((dest + i) % 4294967296) := by
  induction bytes using List.reverseRecOn with
  | nil => rfl
  | append_singleton bytes last ih =>
      rw [List.length_append, List.length_singleton] at short ⊢
      have single : storesAt (dest + bytes.length) [last] =
          [{ address := (dest + bytes.length) % 4294967296, byte := last }] :=
        rfl
      rw [storesAt_append, List.foldl_append, single, List.foldl_cons, List.foldl_nil]
      simp only
      rcases Nat.lt_trichotomy i bytes.length with before | here | behind
      · rw [Function.update_of_ne (by omega), ih (by omega), if_pos before, if_pos (by omega),
          List.getD_eq_getElem?_getD, List.getD_eq_getElem?_getD,
          List.getElem?_append_left before]
      · rw [here, Function.update_self, if_pos (Nat.lt_succ_self _)]
        simp
      · rw [Function.update_of_ne (by omega), ih (by omega), if_neg (by omega),
          if_neg (by omega)]

end PonyOS.Lib.Word
