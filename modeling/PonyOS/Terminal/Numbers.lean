import Mathlib.Data.Nat.Digits.Lemmas
import PonyOS.Lib.Segment
import PonyOS.Terminal.Printf

/-!
# Numbers in buffers

`itoa` writes the digits of a number into the buffer of its caller, the lowest
first, and reverses them in place; the user library has a copy of it.  `%#x` lets
it write behind the first eight bytes of a buffer and fills zeros in front of the
digits there.  Reading the texts back gives the number.
-/

namespace PonyOS.Terminal.Numbers

open PonyOS.FileSystem
open PonyOS.Lib.Loop
open PonyOS.Lib.Segment
open PonyOS.Lib.Word

/-! ## The functions of the source -/

/-- The variables of the loop of `itoa`. -/
structure DigitLoop where
  newval : UInt32
  newbuf : Nat
  buffer : Nat → UInt8

/-- The condition of the loop. -/
def DigitLoop.more (loop : DigitLoop) : Bool :=
  loop.newval > 0

/-- One turn of the loop; `radix` is converted to `uint32_t` by the operators. -/
def DigitLoop.turn (radix : UInt32) (loop : DigitLoop) : DigitLoop :=
  let i := loop.newval % radix
  { newval := loop.newval / radix
    newbuf := loop.newbuf + 1
    buffer := Function.update loop.buffer loop.newbuf (itoaLookup.getD i.toNat 0) }

/-- `strrev`, with the pointer it returns. -/
def strrev (buffer : Nat → UInt8) (s : Nat) : Nat × (Nat → UInt8) :=
  let last := int32 (strlen (fun i => buffer (s + i)) addressSpace - 1)
  (s, (whileDo last.toNat Ends.apart (Ends.swap s) ⟨0, last, buffer⟩).table)

/-- `ece391_strrev`. -/
def ece391Strrev (buffer : Nat → UInt8) (s : Nat) : Nat × (Nat → UInt8) :=
  let last := int32 (strlen (fun i => buffer (s + i)) addressSpace - 1)
  if last ≤ 0 then (s, buffer)
  else (s, (whileDo last.toNat Ends.apart (Ends.swap s) ⟨0, last, buffer⟩).table)

/-- The body that `itoa` and `ece391_itoa` share, up to the reversal they call. -/
def numberWith (reverse : (Nat → UInt8) → Nat → Nat × (Nat → UInt8)) (value : UInt32)
    (buffer : Nat → UInt8) (buf : Nat) (radix : UInt32) : Nat × (Nat → UInt8) :=
  if value = 0 then (buf, Function.update (Function.update buffer buf 48) (buf + 1) 0)
  else
    let loop := whileDo 32 DigitLoop.more (DigitLoop.turn radix) ⟨value, buf, buffer⟩
    reverse (Function.update loop.buffer loop.newbuf 0) buf

/-- `itoa`, with the pointer it returns. -/
def itoa (value : UInt32) (buffer : Nat → UInt8) (buf : Nat) (radix : UInt32) :
    Nat × (Nat → UInt8) :=
  numberWith strrev value buffer buf radix

/-- `ece391_itoa`. -/
def ece391Itoa (value : UInt32) (buffer : Nat → UInt8) (buf : Nat) (radix : UInt32) :
    Nat × (Nat → UInt8) :=
  numberWith ece391Strrev value buffer buf radix

/-- The string at a position of a buffer, as `puts` prints it. -/
def textAt (buffer : Nat → UInt8) (start : Nat) : List UInt8 :=
  segment buffer start (strlen (fun i => buffer (start + i)) addressSpace)

/-- The variables of the loop that fills zeros in front of the digits. -/
structure FillLoop where
  i : Nat
  convBuf : Nat → UInt8

/-- The condition of the loop. -/
def FillLoop.more (loop : FillLoop) : Bool :=
  loop.i < 8

/-- One turn of the loop. -/
def FillLoop.turn (loop : FillLoop) : FillLoop :=
  { i := loop.i + 1, convBuf := Function.update loop.convBuf loop.i 48 }

/-- What `%#x` prints, by what its buffer holds before. -/
def alternateHex (convBuf : Nat → UInt8) (word : UInt32) : List UInt8 :=
  let written := (itoa word convBuf 8 16).2
  let startingIndex := strlen (fun i => written (8 + i)) addressSpace
  let filled := whileDo 8 FillLoop.more FillLoop.turn ⟨startingIndex, written⟩
  textAt filled.convBuf startingIndex

/-! ## Reading a number -/

/-- The digit that a character stands for. -/
def digitOf (c : UInt8) : Option Nat :=
  if 48 ≤ c ∧ c ≤ 57 then some (c.toNat - 48)
  else if 65 ≤ c ∧ c ≤ 90 then some (c.toNat - 55)
  else none

/-- The number that is read from a digit more. -/
def readDigit (radix value : Nat) (c : UInt8) : Option Nat :=
  (digitOf c).bind fun digit => if digit < radix then some (value * radix + digit) else none

/-- The number that a text stands for in base `radix`; a text with a character that
is no digit below `radix` stands for none. -/
def numberIn (radix : Nat) (text : List UInt8) : Option Nat :=
  text.foldlM (readDigit radix) 0

/-- Each character is a digit below `radix`. -/
def UsesDigits (radix : Nat) (text : List UInt8) : Prop :=
  ∀ c ∈ text, ∃ digit < radix, digitOf c = some digit

/-- The character of a digit. -/
def digitChar (digit : Nat) : UInt8 :=
  itoaLookup.getD digit 0

theorem digitOf_digitChar : ∀ digit < 36, digitOf (digitChar digit) = some digit := by
  decide

theorem usesDigits_digits {radix : Nat} (small : radix ≤ 36) {digits : List Nat}
    (below : ∀ digit ∈ digits, digit < radix) :
    UsesDigits radix (digits.map digitChar).reverse := by
  intro c member
  rcases List.mem_map.mp (List.mem_reverse.mp member) with ⟨digit, isDigit, rfl⟩
  have digitLt := below digit isDigit
  exact ⟨digit, digitLt, digitOf_digitChar digit (Nat.lt_of_lt_of_le digitLt small)⟩

theorem usesDigits_replicate {radix : Nat} (positive : 0 < radix) (k : Nat) :
    UsesDigits radix (List.replicate k 48) := by
  intro c member
  rw [List.eq_of_mem_replicate member]
  exact ⟨0, positive, rfl⟩

theorem numberIn_digits {radix : Nat} (small : radix ≤ 36) {digits : List Nat}
    (below : ∀ digit ∈ digits, digit < radix) :
    numberIn radix (digits.map digitChar).reverse = some (Nat.ofDigits radix digits) := by
  induction digits with
  | nil => rfl
  | cons digit digits ih =>
      have digitLt := below digit List.mem_cons_self
      have rest := ih fun other member => below other (List.mem_cons_of_mem digit member)
      rw [numberIn] at rest ⊢
      rw [List.map_cons, List.reverse_cons, List.foldlM_append, rest]
      simp only [Option.bind_eq_bind, Option.bind_some, List.foldlM_cons, List.foldlM_nil,
        readDigit, digitOf_digitChar digit (by omega), if_pos digitLt, Option.pure_def]
      rw [Nat.ofDigits_cons, Nat.mul_comm, Nat.add_comm]

theorem numberIn_replicate {radix : Nat} (positive : 0 < radix) (k : Nat) (text : List UInt8) :
    numberIn radix (List.replicate k 48 ++ text) = numberIn radix text := by
  induction k with
  | zero => rfl
  | succ k ih =>
      have zero : readDigit radix 0 48 = some 0 := by
        rw [readDigit, show digitOf 48 = some 0 from rfl, Option.bind_some, if_pos positive,
          Nat.zero_mul]
      rw [numberIn] at ih ⊢
      rw [List.replicate_succ, List.cons_append, List.foldlM_cons, zero]
      exact ih

/-! ## Digits -/

theorem itoaDigits_eq {radix : Nat} (large : 2 ≤ radix) (fuel newval : Nat)
    (enough : newval < radix ^ fuel) :
    itoaDigits radix fuel newval = (Nat.digits radix newval).map digitChar := by
  induction fuel generalizing newval with
  | zero =>
      obtain rfl : newval = 0 := by simpa using enough
      simp [itoaDigits]
  | succ fuel ih =>
      rw [itoaDigits]
      by_cases positive : newval > 0
      · have smaller : newval / radix < radix ^ fuel := by
          apply Nat.div_lt_of_lt_mul
          rwa [Nat.mul_comm, ← Nat.pow_succ]
        rw [if_pos positive, ih _ smaller, Nat.digits_def' large positive]
        rfl
      · obtain rfl : newval = 0 := by omega
        simp

/-- A number has at most as many digits as it has bits. -/
theorem digits_length_le {radix : Nat} (large : 2 ≤ radix) (value : UInt32) :
    (Nat.digits radix value.toNat).length ≤ 32 := by
  rw [Nat.digits_length_le_iff large]
  calc
    value.toNat < 2 ^ 32 := value.toNat_lt
    _ ≤ radix ^ 32 := Nat.pow_le_pow_left large 32

/-- What a run of the loop has written. -/
structure DigitLoop.Wrote (loop final : DigitLoop) (text : List UInt8) : Prop where
  newbuf : final.newbuf = loop.newbuf + text.length
  digits : segment final.buffer loop.newbuf text.length = text
  outside : ∀ i, i < loop.newbuf ∨ loop.newbuf + text.length ≤ i →
    final.buffer i = loop.buffer i

/-- The loop writes the digits, the lowest first, and leaves after the last one. -/
theorem DigitLoop.run {radix : UInt32} (large : 2 ≤ radix.toNat) {digits : List Nat}
    (loop : DigitLoop) (represented : Nat.digits radix.toNat loop.newval.toNat = digits) :
    StopsAfter DigitLoop.more (DigitLoop.turn radix) loop digits.length ∧
      loop.Wrote ((DigitLoop.turn radix)^[digits.length] loop) (digits.map digitChar) := by
  induction digits generalizing loop with
  | nil =>
      have zero : loop.newval = 0 :=
        UInt32.toNat_inj.mp (Nat.digits_eq_nil_iff_eq_zero.mp represented)
      refine ⟨⟨fun m inside => absurd inside (Nat.not_lt_zero m), ?_⟩, rfl, rfl, fun i _ => rfl⟩
      simp [DigitLoop.more, zero]
  | cons digit digits ih =>
      have positive : 0 < loop.newval.toNat := by
        apply Nat.pos_of_ne_zero
        intro zero
        rw [zero, Nat.digits_zero] at represented
        cases represented
      rw [Nat.digits_def' large positive] at represented
      obtain ⟨digitEq, restEq⟩ := List.cons.inj represented
      have next : (loop.turn radix).newval.toNat = loop.newval.toNat / radix.toNat :=
        UInt32.toNat_div loop.newval radix
      obtain ⟨stops, wrote⟩ := ih (loop.turn radix) (by rw [next]; exact restEq)
      have entered : loop.more = true := decide_eq_true (UInt32.lt_iff_toNat_lt.mpr positive)
      refine ⟨stops.head entered, ?_, ?_, ?_⟩
      · rw [List.length_cons, Function.iterate_succ_apply, wrote.newbuf, List.map_cons,
          List.length_cons]
        exact Nat.add_right_comm loop.newbuf 1 _
      · -- The first digit stands below everything that the other turns write.
        have kept := wrote.outside loop.newbuf (.inl (Nat.lt_succ_self loop.newbuf))
        have first : (loop.turn radix).buffer loop.newbuf = digitChar digit := by
          rw [← digitEq, ← UInt32.toNat_mod]
          exact Function.update_self ..
        rw [List.length_cons, Function.iterate_succ_apply, List.map_cons, List.length_cons,
          segment_succ, kept, first]
        exact congrArg (digitChar digit :: ·) wrote.digits
      · intro i outside
        rw [List.map_cons, List.length_cons] at outside
        have elsewhere : (loop.turn radix).buffer i = loop.buffer i :=
          Function.update_of_ne (by omega) _ _
        rw [List.length_cons, Function.iterate_succ_apply, ← elsewhere]
        apply wrote.outside
        change i < loop.newbuf + 1 ∨ loop.newbuf + 1 + (digits.map digitChar).length ≤ i
        omega

/-! ## Strings in buffers -/

/-- A buffer holds a string. -/
structure Holds (buffer : Nat → UInt8) (start : Nat) (text : List UInt8) : Prop where
  chars : segment buffer start text.length = text
  terminated : buffer (start + text.length) = 0
  noNul : (0 : UInt8) ∉ text
  short : text.length < 2147483648

namespace Holds

variable {buffer : Nat → UInt8} {start : Nat} {text : List UInt8}

theorem strlen_eq (holds : Holds buffer start text) :
    strlen (fun i => buffer (start + i)) addressSpace = text.length := by
  have short := holds.short
  have room : text.length < addressSpace := by
    unfold addressSpace
    omega
  apply Nat.le_antisymm
  · exact (strlen_le_iff room).mpr ⟨text.length, le_rfl, holds.terminated⟩
  · by_contra early
    rw [Nat.not_le] at early
    have zero := strlen_zero (Nat.lt_trans early room)
    apply holds.noNul
    rw [← holds.chars, ← zero]
    exact List.mem_map_of_mem (List.mem_range.mpr early)

theorem textAt_eq (holds : Holds buffer start text) : textAt buffer start = text := by
  rw [textAt, holds.strlen_eq, holds.chars]

end Holds

/-- What a function returns that leaves a string in a buffer: the pointer to it, and
the buffer with nothing changed around the string. -/
structure Produces (before : Nat → UInt8) (start : Nat) (text : List UInt8)
    (result : Nat × (Nat → UInt8)) : Prop where
  pointer : result.1 = start
  string : Holds result.2 start text
  outside : ∀ i, i < start ∨ start + text.length < i → result.2 i = before i

/-- A function that reverses a string in place. -/
def Reverses (reverse : (Nat → UInt8) → Nat → Nat × (Nat → UInt8)) : Prop :=
  ∀ {buffer : Nat → UInt8} {s : Nat} {text : List UInt8}, Holds buffer s text →
    Produces buffer s text.reverse (reverse buffer s)

/-- A mirrored segment is a reversed string. -/
theorem produces_mirrored {buffer : Nat → UInt8} {s : Nat} {text : List UInt8}
    (holds : Holds buffer s text) :
    Produces buffer s text.reverse
      (s, mirrored buffer s text.length (text.length / 2)) where
  pointer := rfl
  string := by
    refine ⟨?_, ?_, ?_, ?_⟩
    · rw [List.length_reverse, segment_mirrored, holds.chars]
    · rw [List.length_reverse]
      exact (mirrored_outside _ _ _ _ (.inr le_rfl)).trans holds.terminated
    · rw [List.mem_reverse]
      exact holds.noNul
    · rw [List.length_reverse]
      exact holds.short
  outside i outside := by
    rw [List.length_reverse] at outside
    exact mirrored_outside _ _ _ _ (by omega)

theorem Holds.last_eq {buffer : Nat → UInt8} {s : Nat} {text : List UInt8}
    (holds : Holds buffer s text) :
    int32 (strlen (fun i => buffer (s + i)) addressSpace - 1) = (text.length : Int) - 1 := by
  have short := holds.short
  rw [holds.strlen_eq, int32]
  omega

theorem strrev_reverses : Reverses strrev := by
  intro buffer s text holds
  have enough : text.length / 2 ≤ ((text.length : Int) - 1).toNat := by omega
  rw [strrev, holds.last_eq, whileDo_swap buffer s text.length enough]
  exact produces_mirrored holds

theorem reverse_of_short {text : List UInt8} (short : text.length ≤ 1) :
    text.reverse = text := by
  rcases Nat.le_one_iff_eq_zero_or_eq_one.mp short with empty | one
  · rw [List.length_eq_zero_iff.mp empty, List.reverse_nil]
  · rcases List.length_eq_one_iff.mp one with ⟨c, rfl⟩
    exact List.reverse_singleton

/-- The early return of the user library leaves strings that are their own reversal. -/
theorem ece391Strrev_reverses : Reverses ece391Strrev := by
  intro buffer s text holds
  rw [ece391Strrev, holds.last_eq]
  by_cases single : (text.length : Int) - 1 ≤ 0
  · rw [if_pos single]
    rw [reverse_of_short (by omega)]
    exact ⟨rfl, holds, fun i _ => rfl⟩
  · have enough : text.length / 2 ≤ ((text.length : Int) - 1).toNat := by omega
    rw [if_neg single, whileDo_swap buffer s text.length enough]
    exact produces_mirrored holds

/-! ## The string of a number -/

theorem produces_zero (buffer : Nat → UInt8) (buf : Nat) :
    Produces buffer buf [48]
      (buf, Function.update (Function.update buffer buf 48) (buf + 1) 0) where
  pointer := rfl
  string := by
    refine ⟨?_, Function.update_self .., by decide, by decide⟩
    have first : Function.update (Function.update buffer buf 48) (buf + 1) 0 buf = 48 := by
      rw [Function.update_of_ne (by omega), Function.update_self]
    exact congrArg (· :: []) first
  outside i outside := by
    rw [List.length_singleton] at outside
    dsimp only
    rw [Function.update_of_ne (by omega), Function.update_of_ne (by omega)]

/-- The string of a number that is not zero. -/
theorem itoaText_eq_digits {radix : Nat} (large : 2 ≤ radix) {value : UInt32}
    (nonzero : value ≠ 0) :
    itoaText value radix = ((Nat.digits radix value.toNat).map digitChar).reverse := by
  have enough : value.toNat < radix ^ 32 := by
    calc
      value.toNat < 2 ^ 32 := value.toNat_lt
      _ ≤ radix ^ 32 := Nat.pow_le_pow_left large 32
  rw [itoaText, if_neg nonzero, itoaDigits_eq large 32 value.toNat enough]

section Strings

variable {radix : UInt32} (large : 2 ≤ radix.toNat)

include large

/-- The digits as the loop leaves them, with the terminator behind them. -/
theorem DigitLoop.Wrote.holds {loop final : DigitLoop}
    (wrote : loop.Wrote final ((Nat.digits radix.toNat loop.newval.toNat).map digitChar))
    (small : radix.toNat ≤ 36) :
    Holds (Function.update final.buffer final.newbuf 0) loop.newbuf
      ((Nat.digits radix.toNat loop.newval.toNat).map digitChar) where
  chars := by
    refine Eq.trans (segment_congr ?_) wrote.digits
    intro i _ inside
    have newbuf := wrote.newbuf
    exact Function.update_of_ne (by omega) _ _
  terminated := by
    rw [wrote.newbuf]
    exact Function.update_self ..
  noNul := by
    intro member
    rcases List.mem_map.mp member with ⟨digit, isDigit, isNul⟩
    have digitLt := Nat.digits_lt_base large isDigit
    have read := digitOf_digitChar digit (by omega)
    rw [isNul] at read
    cases read
  short := by
    have count := digits_length_le large loop.newval
    rw [List.length_map]
    omega

/-- `itoa` leaves the string of its number in the buffer, whichever of the two
reversals it calls. -/
theorem numberWith_produces {reverse : (Nat → UInt8) → Nat → Nat × (Nat → UInt8)}
    (reverses : Reverses reverse) (value : UInt32) (buffer : Nat → UInt8) (buf : Nat)
    (small : radix.toNat ≤ 36) :
    Produces buffer buf (itoaText value radix.toNat)
      (numberWith reverse value buffer buf radix) := by
  by_cases zero : value = 0
  · rw [numberWith, if_pos zero, itoaText, if_pos zero]
    exact produces_zero buffer buf
  · rcases DigitLoop.run large ⟨value, buf, buffer⟩ rfl with ⟨stops, wrote⟩
    have reversed := reverses (wrote.holds large small)
    have enough := digits_length_le large value
    rw [numberWith, if_neg zero, itoaText_eq_digits large zero, stops.whileDo_eq enough]
    refine ⟨reversed.pointer, reversed.string, ?_⟩
    intro i outside
    rw [reversed.outside i outside]
    rw [List.length_reverse] at outside
    rw [Function.update_of_ne (by rw [wrote.newbuf]; dsimp only; omega)]
    exact wrote.outside i (by dsimp only; omega)

end Strings

/-- What makes a text the numeral of a number: its digits are below the radix, read
back it is the number, it has no leading zero, and it fits in 33 bytes with its
terminator. -/
structure IsNumeral (radix : Nat) (value : UInt32) (text : List UInt8) : Prop where
  nonempty : text ≠ []
  digits : UsesDigits radix text
  number : numberIn radix text = some value.toNat
  leading : text.head? = some 48 → value = 0
  fits : text.length + 1 ≤ 33

/-- The string of a number is its numeral. -/
theorem itoaText_isNumeral {radix : Nat} (large : 2 ≤ radix) (small : radix ≤ 36) (value : UInt32) :
    IsNumeral radix value (itoaText value radix) := by
  by_cases zero : value = 0
  · rw [itoaText, if_pos zero, zero]
    have positive : 0 < radix := Nat.lt_of_lt_of_le Nat.two_pos large
    refine ⟨List.cons_ne_nil _ _, ?_, ?_, fun _ => rfl, by decide⟩
    · exact usesDigits_replicate positive 1
    · exact numberIn_replicate positive 1 []
  · have nonzero : value.toNat ≠ 0 := fun isZero => zero (UInt32.toNat_inj.mp isZero)
    have digitsNe : Nat.digits radix value.toNat ≠ [] :=
      Nat.digits_ne_nil_iff_ne_zero.mpr nonzero
    have below : ∀ digit ∈ Nat.digits radix value.toNat, digit < radix :=
      fun digit member => Nat.digits_lt_base large member
    rw [itoaText_eq_digits large zero]
    refine ⟨?_, usesDigits_digits small below, ?_, ?_, ?_⟩
    · simpa using digitsNe
    · rw [numberIn_digits small below, Nat.ofDigits_digits]
    · -- The leading character is that of the highest digit, which is not zero.
      intro leading
      rw [List.head?_reverse, List.getLast?_map, List.getLast?_eq_getLast_of_ne_nil digitsNe,
        Option.map_some] at leading
      have highest := Nat.getLast_digit_ne_zero radix nonzero
      have highestLt := Nat.digits_lt_base large (List.getLast_mem digitsNe)
      have read := digitOf_digitChar _ (Nat.lt_of_lt_of_le highestLt small)
      rw [Option.some.inj leading] at read
      exact absurd (Option.some.inj read).symm highest
    · have count := digits_length_le large value
      rw [List.length_reverse, List.length_map]
      omega

/-! ## Eight hexadecimal digits -/

/-- A buffer with zeros up to the digits. -/
def filledFrom (convBuf : Nat → UInt8) (start i : Nat) (place : Nat) : UInt8 :=
  if start ≤ place ∧ place < i then 48 else convBuf place

theorem FillLoop.turn_iterate (convBuf : Nat → UInt8) (start m : Nat) :
    FillLoop.turn^[m] ⟨start, convBuf⟩ = ⟨start + m, filledFrom convBuf start (start + m)⟩ := by
  induction m with
  | zero =>
      have unchanged : filledFrom convBuf start start = convBuf := by
        funext place
        rw [filledFrom, if_neg (by omega)]
      rw [Nat.add_zero, unchanged]
      rfl
  | succ m ih =>
      rw [Function.iterate_succ_apply', ih, FillLoop.turn]
      refine congrArg (FillLoop.mk (start + m + 1)) ?_
      funext place
      dsimp only
      by_cases here : place = start + m
      · subst here
        rw [Function.update_self, filledFrom, if_pos (by omega)]
      · rw [Function.update_of_ne here, filledFrom, filledFrom]
        by_cases below : start ≤ place ∧ place < start + m
        · rw [if_pos below, if_pos (by omega)]
        · rw [if_neg below, if_neg (by omega)]

/-- The loop fills up to the eighth byte. -/
theorem FillLoop.run (convBuf : Nat → UInt8) {start : Nat} (within : start ≤ 8) :
    whileDo 8 FillLoop.more FillLoop.turn ⟨start, convBuf⟩ =
      ⟨8, filledFrom convBuf start 8⟩ := by
  have stops : StopsAfter FillLoop.more FillLoop.turn ⟨start, convBuf⟩ (8 - start) := by
    constructor
    · intro m inside
      rw [turn_iterate]
      exact decide_eq_true (show start + m < 8 by omega)
    · rw [turn_iterate]
      exact decide_eq_false (show ¬ start + (8 - start) < 8 by omega)
  rw [stops.whileDo_eq (Nat.sub_le 8 start), turn_iterate, Nat.add_sub_of_le within]

/-- The digits with the zeros in front of them are one string. -/
theorem Holds.filled {buffer : Nat → UInt8} {digits : List UInt8} (holds : Holds buffer 8 digits)
    (count : digits.length ≤ 8) :
    Holds (filledFrom buffer digits.length 8) digits.length
      (List.replicate (8 - digits.length) 48 ++ digits) := by
  have total : (List.replicate (8 - digits.length) 48 ++ digits).length =
      8 - digits.length + digits.length := by
    rw [List.length_append, List.length_replicate]
  have zeros : segment (filledFrom buffer digits.length 8) digits.length (8 - digits.length) =
      List.replicate (8 - digits.length) 48 := by
    apply List.eq_replicate_iff.mpr
    refine ⟨segment_length .., ?_⟩
    intro c member
    rcases List.mem_map.mp member with ⟨i, inside, rfl⟩
    have below := List.mem_range.mp inside
    rw [filledFrom, if_pos (by omega)]
  have behind : segment (filledFrom buffer digits.length 8) 8 digits.length = digits := by
    refine Eq.trans (segment_congr ?_) holds.chars
    intro i above _
    rw [filledFrom, if_neg (by omega)]
  refine ⟨?_, ?_, ?_, ?_⟩
  · rw [total, segment_add, zeros, Nat.add_sub_of_le count, behind]
  · rw [total, filledFrom, if_neg (by omega), ← holds.terminated]
    exact congrArg buffer (by omega)
  · rw [List.mem_append, List.mem_replicate]
    rintro (⟨-, isZero⟩ | member)
    · cases isZero
    · exact holds.noNul member
  · rw [total]
    omega

/-- A word has at most eight hexadecimal digits. -/
theorem itoaText_length_hex (word : UInt32) : (itoaText word 16).length ≤ 8 := by
  by_cases zero : word = 0
  · rw [itoaText, if_pos zero]
    decide
  · rw [itoaText_eq_digits (by decide) zero, List.length_reverse, List.length_map]
    exact (Nat.digits_length_le_iff (by decide) word.toNat).mpr word.toNat_lt

/-- `%#x` prints the digits with the zeros in front, whatever its buffer held. -/
theorem alternateHex_eq (convBuf : Nat → UInt8) (word : UInt32) :
    alternateHex convBuf word =
      List.replicate (8 - (itoaText word 16).length) 48 ++ itoaText word 16 := by
  have produced : Produces convBuf 8 (itoaText word (16 : UInt32).toNat)
      (numberWith strrev word convBuf 8 16) :=
    numberWith_produces (by decide) strrev_reverses word convBuf 8 (by decide)
  have count := itoaText_length_hex word
  have written := produced.string
  rw [show (16 : UInt32).toNat = 16 from rfl] at written
  rw [alternateHex, itoa]
  generalize (numberWith strrev word convBuf 8 16).2 = buffer at written ⊢
  generalize itoaText word 16 = digits at written count ⊢
  rw [written.strlen_eq, FillLoop.run buffer count]
  exact (written.filled count).textAt_eq

/-- What `%#x` is to print. -/
structure IsEightDigits (word : UInt32) (text : List UInt8) : Prop where
  length : text.length = 8
  digits : UsesDigits 16 text
  number : numberIn 16 text = some word.toNat

theorem alternateHex_isEightDigits (convBuf : Nat → UInt8) (word : UInt32) :
    IsEightDigits word (alternateHex convBuf word) := by
  have numeral : IsNumeral 16 word (itoaText word 16) :=
    itoaText_isNumeral (by decide) (by decide) word
  have count := itoaText_length_hex word
  rw [alternateHex_eq]
  refine ⟨?_, ?_, ?_⟩
  · rw [List.length_append, List.length_replicate, Nat.sub_add_cancel count]
  · intro c member
    rcases List.mem_append.mp member with zero | digit
    · exact usesDigits_replicate (by decide) _ c zero
    · exact numeral.digits c digit
  · rw [numberIn_replicate (by decide), numeral.number]

/-- In every radix from 2 to 36, `itoa` and `ece391_itoa` leave the same string in any
buffer, which is the numeral of the number, and their loop ends by itself; and
wherever `printf` meets an `x` behind a `#`, it prints eight digits that are its
argument. -/
theorem itoa_roundTrip (value radix : UInt32) (large : 2 ≤ radix.toNat)
    (small : radix.toNat ≤ 36) (buffer : Nat → UInt8) (buf : Nat) :
    (∃ text, IsNumeral radix.toNat value text ∧
      Produces buffer buf text (itoa value buffer buf radix) ∧
      Produces buffer buf text (ece391Itoa value buffer buf radix) ∧
      (value ≠ 0 → StopsAfter DigitLoop.more (DigitLoop.turn radix) ⟨value, buf, buffer⟩
        text.length)) ∧
    ∀ (format : Nat → UInt8) (words : Nat → UInt32) (memory : Memory) (scanner : Scanner),
      scanner.conversion = some true → format scanner.buf = 120 →
      ∀ convBuf : Nat → UInt8,
        IsEightDigits (words scanner.esp) (alternateHex convBuf (words scanner.esp)) ∧
        printfStep format words memory scanner =
          some
            { buf := scanner.buf + 1
              esp := scanner.esp + 1
              conversion := none
              output := scanner.output ++ alternateHex convBuf (words scanner.esp) } := by
  constructor
  · refine ⟨itoaText value radix.toNat, itoaText_isNumeral large small value, ?_, ?_, ?_⟩
    · exact numberWith_produces large strrev_reverses value buffer buf small
    · exact numberWith_produces large ece391Strrev_reverses value buffer buf small
    · intro nonzero
      rw [itoaText_eq_digits large nonzero, List.length_reverse, List.length_map]
      exact (DigitLoop.run large ⟨value, buf, buffer⟩ rfl).1
  · intro format words memory scanner alternate isX convBuf
    refine ⟨alternateHex_isEightDigits convBuf _, ?_⟩
    rw [printfStep, alternate, isX, alternateHex_eq]
    rfl

/-- 255 in base 16, and what `%#x` prints of it. -/
theorem itoa_roundTrip_ff :
    IsNumeral 16 255 [70, 70] ∧
      textAt (itoa 255 (fun _ => 65) 4 16).2 4 = [70, 70] ∧
      textAt (ece391Itoa 255 (fun _ => 65) 4 16).2 4 = [70, 70] ∧
      printfStep (fun _ => 120) (fun _ => 255) (fun _ => 0) ⟨2, 0, some true, []⟩ =
        some ⟨3, 1, none, [48, 48, 48, 48, 48, 48, 70, 70]⟩ := by
  obtain ⟨⟨text, numeral, produced, copied, -⟩, prints⟩ :=
    itoa_roundTrip 255 16 (by decide) (by decide) (fun _ => 65) 4
  have shown : textAt (itoa 255 (fun _ => 65) 4 16).2 4 = [70, 70] := by decide
  obtain rfl : text = [70, 70] := produced.string.textAt_eq.symm.trans shown
  have printed := (prints (fun _ => 120) (fun _ => 255) (fun _ => 0) ⟨2, 0, some true, []⟩ rfl rfl
    (fun _ => 65)).2
  refine ⟨numeral, shown, copied.string.textAt_eq, printed.trans ?_⟩
  decide

end PonyOS.Terminal.Numbers
