import Mathlib.Algebra.Ring.Int.Defs
import Mathlib.Tactic.IntervalCases
import PonyOS.Syscall.Calls

/-!
# The rate of the clock

`rtc_write` checks the frequency that it is asked for and writes its rate to
register A of the clock.  The check looks at a copy that was cut down to
`MAX_FREQ`, and the rate is computed from the frequency itself.
-/

namespace PonyOS.Clock

open PonyOS.Lib.Loop
open PonyOS.Lib.Word
open PonyOS.Syscall

/-! ## The device -/

/-- The loop of `set_freq`: shifts of the frequency until it is gone, counted in
`pwr`. -/
def setFreqLoop (state : Int × Int) : Int × Int :=
  whileDo 32 (fun state => decide (state.1 > 0)) (fun state => (state.1 / 2, state.2 + 1)) state

/-- `set_freq`: what is written to register A, by what was read from it. -/
def setFreq (registerA : UInt8) (freq : Int) : UInt8 :=
  let pwr := (setFreqLoop (freq, -1)).2
  let rate := 15 - pwr + 1
  (registerA &&& 0xF0) ||| UInt8.ofInt rate

/-- `rtc_write`: the result, and what is written to register A, if anything.  A
null pointer is `none`. -/
def rtcWriteRegister (registerA : UInt8) (freq : Option Int) (size : Int) : Int × Option UInt8 :=
  match freq with
  | none => (-1, none)
  | some freq =>
      if size ≠ 4 then (-1, none)
      else if freq ≤ 0 then (-1, none)
      else if rtcOddBit 32 (if freq > maxFreq then maxFreq else freq).toNat then (-1, none)
      else (0, some (setFreq registerA freq))

theorem rtcWrite_eq (registerA : UInt8) (memory : Memory) (buf : Nat) :
    rtcWrite memory buf =
      (rtcWriteRegister registerA
        (if buf = 0 then none else some (int32 (loadWord memory buf))) 4).1 := by
  unfold rtcWrite
  by_cases null : buf = 0
  · rw [if_pos null, if_pos null, rtcWriteRegister]
  · rw [if_neg null, if_neg null, rtcWriteRegister]
    dsimp only
    generalize int32 (loadWord memory buf) = freq
    generalize setFreq registerA freq = written
    rw [if_neg (fun other : (4 : Int) ≠ 4 => other rfl)]
    by_cases positive : freq ≤ 0
    · rw [if_pos positive, if_pos positive]
    · rw [if_neg positive, if_neg positive]
      generalize rtcOddBit 32 _ = odd
      cases odd <;> rfl

/-! ## The check -/

/-- The loop of `rtc_write` finds a second bit exactly if the number is not a
power of two. -/
theorem rtcOddBit_eq_false_iff {fuel temp : Nat} (positive : 0 < temp) (small : temp < 2 ^ fuel) :
    rtcOddBit fuel temp = false ↔ ∃ k, temp = 2 ^ k := by
  induction fuel generalizing temp with
  | zero => omega
  | succ fuel ih =>
      rw [rtcOddBit, if_neg (by omega)]
      by_cases one : temp = 1
      · subst one
        have power : ∃ k, 1 = 2 ^ k := ⟨0, rfl⟩
        cases fuel <;> simpa [rtcOddBit] using power
      · have halved : 0 < temp / 2 ∧ temp / 2 < 2 ^ fuel := by
          rw [Nat.pow_succ] at small
          omega
        rw [Bool.or_eq_false_iff, ih halved.1 halved.2, decide_eq_false_iff_not]
        constructor
        · rintro ⟨even, k, power⟩
          refine ⟨k + 1, ?_⟩
          rw [Nat.pow_succ]
          omega
        · rintro ⟨k, power⟩
          cases k with
          | zero => exact absurd power one
          | succ k =>
              rw [Nat.pow_succ] at power
              exact ⟨by omega, k, by omega⟩

/-- What `rtc_write` does with a frequency that passes its check, and with one
that does not. -/
theorem rtcWriteRegister_cases (registerA : UInt8) (freq : Int) :
    ((1024 < freq ∨ ∃ k : Nat, freq = 2 ^ k) ∧
        rtcWriteRegister registerA (some freq) 4 = (0, some (setFreq registerA freq))) ∨
      (freq ≤ 1024 ∧ (∀ k : Nat, freq ≠ 2 ^ k) ∧
        rtcWriteRegister registerA (some freq) 4 = (-1, none)) := by
  rw [rtcWriteRegister, if_neg (fun other : (4 : Int) ≠ 4 => other rfl)]
  generalize setFreq registerA freq = written
  by_cases positive : freq ≤ 0
  · have notPower : ∀ k : Nat, freq ≠ 2 ^ k := by
      intro k power
      have above : (0 : Int) < 2 ^ k := Int.pow_pos (by decide)
      omega
    exact Or.inr ⟨by omega, notPower, if_pos positive⟩
  · rw [if_neg positive]
    by_cases large : freq > maxFreq
    · rw [if_pos large]
      exact Or.inl ⟨Or.inl large, rfl⟩
    · rw [if_neg large]
      have bounded : freq ≤ 1024 := Int.not_lt.mp large
      have copied : ((freq.toNat : Nat) : Int) = freq := by omega
      have checked : rtcOddBit 32 freq.toNat = false ↔ ∃ k : Nat, freq = 2 ^ k := by
        rw [rtcOddBit_eq_false_iff (by omega) (by omega)]
        constructor
        · rintro ⟨k, power⟩
          refine ⟨k, ?_⟩
          rw [← copied, power]
          push_cast
          rfl
        · rintro ⟨k, power⟩
          refine ⟨k, ?_⟩
          rw [← copied] at power
          exact_mod_cast power
      cases odd : rtcOddBit 32 freq.toNat with
      | false => exact Or.inl ⟨Or.inr (checked.mp odd), rfl⟩
      | true =>
          have notPower : ∀ k : Nat, freq ≠ 2 ^ k := by
            intro k power
            rw [checked.mpr ⟨k, power⟩] at odd
            cases odd
          exact Or.inr ⟨bounded, notPower, rfl⟩

/-! ## The rate -/

/-- The loop of `set_freq` counts the exponent of a power of two. -/
theorem setFreqLoop_pow (k : Nat) (small : k < 32) (pwr : Int) :
    setFreqLoop (2 ^ k, pwr) = (0, pwr + k + 1) := by
  unfold setFreqLoop
  generalize 32 = bound at small ⊢
  induction k generalizing bound pwr with
  | zero =>
      cases bound with
      | zero => omega
      | succ bound =>
          rw [whileDo, if_pos (by simp), whileDo_of_not (by simp)]
          simp
  | succ k ih =>
      cases bound with
      | zero => omega
      | succ bound =>
          have positive : (0 : Int) < 2 ^ (k + 1) := Int.pow_pos (by decide)
          have halved : (2 : Int) ^ (k + 1) / 2 = 2 ^ k := by
            rw [pow_succ]
            omega
          rw [whileDo, if_pos (decide_eq_true positive)]
          dsimp only
          rw [halved, ih (pwr + 1) bound (by omega)]
          congr 1
          push_cast
          omega

/-- The low half of what is written to register A. -/
def rateOf (written : UInt8) : Nat :=
  (written &&& 0x0F).toNat

/-- The two halves of register A are written apart. -/
theorem halves_of_or (registerA rate : UInt8) (small : rate &&& 0xF0 = 0) :
    (registerA &&& 0xF0 ||| rate) &&& 0x0F = rate &&& 0x0F ∧
      (registerA &&& 0xF0 ||| rate) &&& 0xF0 = registerA &&& 0xF0 := by
  have clear : rate.toBitVec &&& 240#8 = 0#8 := UInt8.toBitVec_inj.mpr small
  constructor
  · apply UInt8.toBitVec_inj.mp
    simp [BitVec.and_or_distrib_right, BitVec.and_assoc]
  · apply UInt8.toBitVec_inj.mp
    simp [BitVec.and_or_distrib_right, BitVec.and_assoc, clear]

theorem rate_fits {k : Nat} (positive : 0 < k) (small : k ≤ 10) :
    UInt8.ofInt (15 - (-1 + (k : Int) + 1) + 1) &&& 0xF0 = 0 ∧
      rateOf (UInt8.ofInt (15 - (-1 + (k : Int) + 1) + 1)) = 16 - k := by
  interval_cases k <;> decide

/-- A supported frequency is programmed exactly. -/
theorem setFreq_pow (registerA : UInt8) {k : Nat} (positive : 0 < k) (small : k ≤ 10) :
    rateOf (setFreq registerA (2 ^ k)) = 16 - k ∧
      setFreq registerA (2 ^ k) &&& 0xF0 = registerA &&& 0xF0 := by
  have fits := rate_fits positive small
  have halves := halves_of_or registerA _ fits.1
  rw [setFreq, setFreqLoop_pow k (by omega)]
  exact ⟨(congrArg UInt8.toNat halves.1).trans fits.2, halves.2⟩

/-- A supported frequency is the base frequency of the clock, shifted by its
rate. -/
theorem shifted_eq {k : Nat} (positive : 0 < k) (small : k ≤ 10) :
    ((32768 >>> (16 - k - 1) : Nat) : Int) = 2 ^ k := by
  interval_cases k <;> decide

/-! ## The contract -/

/-- `rtc_write` accepts the powers of two from 2 to 1024 and no other frequency,
programs what it accepts and leaves the register alone otherwise. -/
structure ProgramsExactly (registerA : UInt8) (freq : Int) : Prop where
  accepts :
    (rtcWriteRegister registerA (some freq) 4).1 = 0 ↔
      2 ≤ freq ∧ freq ≤ 1024 ∧ ∃ k : Nat, freq = 2 ^ k
  programs :
    (rtcWriteRegister registerA (some freq) 4).1 = 0 →
      ∃ written, (rtcWriteRegister registerA (some freq) 4).2 = some written ∧
        1 ≤ rateOf written ∧ ((32768 >>> (rateOf written - 1) : Nat) : Int) = freq ∧
        written &&& 0xF0 = registerA &&& 0xF0
  refuses :
    (rtcWriteRegister registerA (some freq) 4).1 = -1 →
      (rtcWriteRegister registerA (some freq) 4).2 = none

/-- A frequency above `MAX_FREQ`, and a frequency of 1, are accepted. -/
theorem not_programsExactly (registerA : UInt8) {freq : Int}
    (unsupported : freq = 1 ∨ 1024 < freq) : ¬ ProgramsExactly registerA freq := by
  intro exactly
  obtain ⟨-, written⟩ | ⟨bounded, notPower, -⟩ := rtcWriteRegister_cases registerA freq
  · have accepted := exactly.accepts.mp (by rw [written])
    omega
  · obtain rfl | large := unsupported
    · exact notPower 0 rfl
    · omega

/-- The clock gets what it is asked for exactly below the frequencies that the
check cuts down, 1 apart. -/
theorem rtcWrite_programsExactly_iff (registerA : UInt8) (freq : Int) :
    ProgramsExactly registerA freq ↔ freq ≠ 1 ∧ freq ≤ 1024 := by
  constructor
  · intro exactly
    constructor
    · intro one
      exact not_programsExactly registerA (Or.inl one) exactly
    · by_contra large
      exact not_programsExactly registerA (Or.inr (by omega)) exactly
  · rintro ⟨notOne, bounded⟩
    obtain ⟨passed, written⟩ | ⟨-, notPower, written⟩ := rtcWriteRegister_cases registerA freq
    · obtain ⟨k, rfl⟩ := passed.resolve_left (by omega)
      have small : k ≤ 10 := by
        by_contra beyond
        have above : (2 : Int) ^ 11 ≤ 2 ^ k := by
          exact_mod_cast Nat.pow_le_pow_right (by decide) (Nat.not_le.mp beyond)
        omega
      have positive : 0 < k := by
        apply Nat.pos_of_ne_zero
        rintro rfl
        exact notOne rfl
      have least : (2 : Int) ^ 1 ≤ 2 ^ k := by
        exact_mod_cast Nat.pow_le_pow_right (by decide) positive
      obtain ⟨rate, high⟩ := setFreq_pow registerA positive small
      refine ⟨?_, ?_, ?_⟩
      · rw [written]
        exact ⟨fun _ => ⟨least, bounded, k, rfl⟩, fun _ => rfl⟩
      · rw [written]
        intro _
        refine ⟨_, rfl, ?_, ?_, high⟩
        · rw [rate]
          omega
        · rw [rate]
          exact shifted_eq positive small
      · rw [written]
        intro refused
        cases refused
    · refine ⟨?_, ?_, ?_⟩
      · rw [written]
        constructor
        · intro accepted
          cases accepted
        · rintro ⟨-, -, k, power⟩
          exact absurd power (notPower k)
      · rw [written]
        intro accepted
        cases accepted
      · rw [written]
        exact fun _ => rfl

/-- A frequency above `MAX_FREQ` that is no power of two is accepted, and the
clock runs at 2048 Hz. -/
theorem rtcWrite_misprograms :
    rtcWriteRegister 0x26 (some 3000) 4 = (0, some 0x25) ∧ ¬ ProgramsExactly 0x26 3000 :=
  ⟨by decide, not_programsExactly 0x26 (Or.inr (by decide))⟩

end PonyOS.Clock
