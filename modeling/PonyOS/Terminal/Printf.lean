import Mathlib.Data.List.Basic
import Mathlib.Logic.Relation
import PonyOS.FileSystem.Lookup

/-!
# The scanner of printf

`printf` walks over its format with one pointer.  The main loop looks for the
terminator before it moves on; after a `%`, and after each `#` behind it, the
pointer moves on without a look, and an unknown character, the terminator among
them, is skipped.  So a format that ends inside a conversion is not the end.
-/

namespace PonyOS.Terminal

open PonyOS.FileSystem
open PonyOS.Lib.Word

/-! ## Numbers -/

/-- `lookup` of `itoa`. -/
def itoaLookup : List UInt8 :=
  "0123456789ABCDEFGHIJKLMNOPQRSTUVWXYZ".toList.map fun c => UInt8.ofNat c.toNat

/-- The digits of the loop of `itoa`, the lowest first. -/
def itoaDigits (radix : Nat) : Nat → Nat → List UInt8
  | 0, _ => []
  | fuel + 1, newval =>
      if newval > 0 then
        itoaLookup.getD (newval % radix) 0 :: itoaDigits radix fuel (newval / radix)
      else []

/-- The string that `itoa` leaves. -/
def itoaText (value : UInt32) (radix : Nat) : List UInt8 :=
  if value = 0 then [48] else (itoaDigits radix 32 value.toNat).reverse

/-! ## The scanner -/

/-- Where `printf` is: at the test of the main loop, or behind a `%`, with
`alternate` set or not. -/
structure Scanner where
  buf : Nat
  esp : Nat
  conversion : Option Bool
  output : List UInt8
deriving DecidableEq, Repr

/-- The conversions that take an argument: `x`, `u`, `d`, `c` and `s`. -/
def takesWord (c : UInt8) : Bool :=
  c ∈ [120, 117, 100, 99, 115]

/-- What a conversion prints, by its character and the next argument. -/
def converted (memory : Memory) (c : UInt8) (alternate : Bool) (word : UInt32) : List UInt8 :=
  if c = 37 then [37]
  else if c = 120 then
    if alternate then
      let digits := itoaText word 16
      List.replicate (8 - digits.length) 48 ++ digits
    else itoaText word 16
  else if c = 117 then itoaText word 10
  else if c = 100 then
    if word.toInt32 < 0 then 45 :: itoaText (-word) 10 else itoaText word 10
  else if c = 99 then [word.toUInt8]
  else if c = 115 then
    bytesAt memory word.toNat (strlen (fun i => load memory (word.toNat + i)) addressSpace)
  else []

variable (format : Nat → UInt8) (words : Nat → UInt32) (memory : Memory)

/-- One turn of the main loop or of `format_char_switch`.  It reads the byte at
`buf`; at the terminator the main loop ends. -/
def printfStep (scanner : Scanner) : Option Scanner :=
  let c := format scanner.buf
  match scanner.conversion with
  | none =>
      if c = 0 then none
      else if c = 37 then
        some { scanner with buf := scanner.buf + 1, conversion := some false }
      else some { scanner with buf := scanner.buf + 1, output := scanner.output ++ [c] }
  | some alternate =>
      if c = 35 then some { scanner with buf := scanner.buf + 1, conversion := some true }
      else
        some
          { buf := scanner.buf + 1
            esp := if takesWord c then scanner.esp + 1 else scanner.esp
            conversion := none
            output := scanner.output ++ converted memory c alternate (words scanner.esp) }

/-- The scanner when `printf` is called. -/
def Scanner.start : Scanner :=
  { buf := 0, esp := 0, conversion := none, output := [] }

/-- A position that `printf` comes to; it reads the format there. -/
def Scans : Scanner → Prop :=
  Relation.ReflTransGen (fun source target => printfStep format words memory source = some target)
    .start

/-- `printf` returned, with the pointer at the end of the format. -/
def Returns (scanner : Scanner) : Prop :=
  Scans format words memory scanner ∧ printfStep format words memory scanner = none

variable {format words memory} in
theorem Scans.next {source target : Scanner} (scans : Scans format words memory source)
    (stepped : printfStep format words memory source = some target) :
    Scans format words memory target :=
  Relation.ReflTransGen.tail scans stepped

/-! ## Formats -/

/-- A format in memory, with any bytes behind its terminator. -/
def formatMemory (text : CString) (behind : Nat → UInt8) (i : Nat) : UInt8 :=
  if i ≤ text.chars.length then text.charAt i else behind i

/-- Whether a text, begun outside or inside a conversion, ends outside of one. -/
def endsOutside : Bool → List UInt8 → Bool
  | inside, [] => !inside
  | false, c :: rest => endsOutside (c = 37) rest
  | true, c :: rest => endsOutside (c = 35) rest

/-- The arguments that its conversions take. -/
def wordsTaken : Bool → List UInt8 → Nat
  | _, [] => 0
  | false, c :: rest => wordsTaken (c = 37) rest
  | true, c :: rest => (if takesWord c then 1 else 0) + wordsTaken (c = 35) rest

/-- `printf` reads no byte behind the terminator of its format, returns the length
of the format, and takes one argument for each conversion that has one. -/
structure StopsAtEnd (text : CString) (behind : Nat → UInt8) (words : Nat → UInt32)
    (memory : Memory) : Prop where
  reads : ∀ scanner, Scans (formatMemory text behind) words memory scanner →
    scanner.buf ≤ text.chars.length
  returns : ∃ scanner, Returns (formatMemory text behind) words memory scanner ∧
    scanner.buf = text.chars.length ∧ scanner.esp = wordsTaken false text.chars

variable {text : CString} {behind : Nat → UInt8} {words : Nat → UInt32} {memory : Memory}
  {scanner target : Scanner}

theorem formatMemory_end (text : CString) (behind : Nat → UInt8) :
    formatMemory text behind text.chars.length = 0 := by
  simp [formatMemory, CString.charAt]

theorem formatMemory_char (behind : Nat → UInt8) {i : Nat} {c : UInt8} {rest : List UInt8}
    (left : text.chars.drop i = c :: rest) :
    formatMemory text behind i = c ∧ c ≠ 0 ∧ text.chars.drop (i + 1) = rest ∧
      i < text.chars.length := by
  have inside : i < text.chars.length := by
    by_contra beyond
    rw [List.drop_eq_nil_of_le (Nat.le_of_not_lt beyond)] at left
    cases left
  rw [List.drop_eq_getElem_cons inside] at left
  obtain ⟨rfl, rfl⟩ := List.cons.inj left
  refine ⟨?_, ?_, rfl, inside⟩
  · rw [formatMemory, if_pos (Nat.le_of_lt inside), CString.charAt, List.getD_eq_getElem?_getD,
      List.getElem?_eq_getElem inside, Option.getD_some]
  · intro isNul
    exact text.noNul (isNul ▸ List.getElem_mem inside)

/-- Where the scanner stands in the format: what is left of it decides how it
ends and which arguments are still to come. -/
structure OnFormat (text : CString) (scanner : Scanner) : Prop where
  within : scanner.buf ≤ text.chars.length
  ends : endsOutside scanner.conversion.isSome (text.chars.drop scanner.buf) =
    endsOutside false text.chars
  words : scanner.esp + wordsTaken scanner.conversion.isSome (text.chars.drop scanner.buf) =
    wordsTaken false text.chars

theorem OnFormat.start (text : CString) : OnFormat text .start where
  within := Nat.zero_le _
  ends := rfl
  words := Nat.zero_add _

theorem OnFormat.step (behind : Nat → UInt8) (words : Nat → UInt32) (memory : Memory)
    (on : OnFormat text scanner) (before : scanner.buf < text.chars.length) :
    ∃ target, printfStep (formatMemory text behind) words memory scanner = some target ∧
      target.buf = scanner.buf + 1 ∧ OnFormat text target := by
  obtain ⟨buf, esp, conversion, output⟩ := scanner
  obtain ⟨within, ends, taken⟩ := on
  cases left : text.chars.drop buf with
  | nil =>
      rw [List.drop_eq_nil_iff] at left
      exact absurd before (Nat.not_lt.mpr left)
  | cons c rest =>
      obtain ⟨read, notNul, remains, -⟩ := formatMemory_char behind left
      dsimp only at ends taken
      rw [left] at ends taken
      cases conversion with
      | none =>
          rw [printfStep]
          dsimp only
          rw [read, if_neg notNul]
          by_cases percent : c = 37
          · rw [if_pos percent]
            refine ⟨_, rfl, rfl, before, ?_, ?_⟩
            · simpa [remains, endsOutside, percent] using ends
            · simpa [remains, wordsTaken, percent] using taken
          · rw [if_neg percent]
            refine ⟨_, rfl, rfl, before, ?_, ?_⟩
            · simpa [remains, endsOutside, percent] using ends
            · simpa [remains, wordsTaken, percent] using taken
      | some alternate =>
          rw [printfStep]
          dsimp only
          rw [read]
          by_cases hash : c = 35
          · subst hash
            rw [if_pos rfl]
            refine ⟨_, rfl, rfl, before, ?_, ?_⟩
            · simpa [remains, endsOutside] using ends
            · simpa [remains, wordsTaken, takesWord] using taken
          · rw [if_neg hash]
            refine ⟨_, rfl, rfl, before, ?_, ?_⟩
            · simpa [remains, endsOutside, hash] using ends
            · simp only [Option.isSome_some, wordsTaken, decide_eq_false hash] at taken
              rw [← taken]
              dsimp only
              rw [remains]
              split
              · exact Nat.add_assoc _ _ _
              · rw [Nat.zero_add]
                rfl

/-- At the terminator the main loop ends, and a conversion goes on. -/
theorem OnFormat.atEnd (behind : Nat → UInt8) (words : Nat → UInt32) (memory : Memory)
    (on : OnFormat text scanner) (last : scanner.buf = text.chars.length) :
    (endsOutside false text.chars = true ∧ scanner.esp = wordsTaken false text.chars ∧
        printfStep (formatMemory text behind) words memory scanner = none) ∨
      (endsOutside false text.chars = false ∧
        ∃ target, printfStep (formatMemory text behind) words memory scanner = some target ∧
          target.buf = text.chars.length + 1) := by
  obtain ⟨buf, esp, conversion, output⟩ := scanner
  obtain ⟨-, ends, taken⟩ := on
  dsimp only at last
  subst last
  dsimp only at ends taken
  rw [List.drop_length] at ends taken
  cases conversion with
  | none =>
      refine Or.inl ⟨ends.symm, taken, ?_⟩
      rw [printfStep]
      dsimp only
      rw [if_pos (formatMemory_end text behind)]
  | some alternate =>
      refine Or.inr ⟨ends.symm, ?_⟩
      rw [printfStep]
      dsimp only
      rw [formatMemory_end, if_neg (by decide)]
      exact ⟨_, rfl, rfl⟩

/-- The scanner comes to the terminator. -/
theorem OnFormat.reaches_end (on : OnFormat text scanner)
    (scans : Scans (formatMemory text behind) words memory scanner) :
    ∃ last, Scans (formatMemory text behind) words memory last ∧ OnFormat text last ∧
      last.buf = text.chars.length := by
  generalize distance : text.chars.length - scanner.buf = n
  induction n generalizing scanner with
  | zero =>
      have within := on.within
      exact ⟨scanner, scans, on, by omega⟩
  | succ n ih =>
      obtain ⟨target, stepped, moved, next⟩ := on.step behind words memory (by omega)
      exact ih next (scans.next stepped) (by omega)

/-- If the format ends outside of a conversion, the scanner stays on it. -/
theorem Scans.onFormat (complete : endsOutside false text.chars = true)
    (scans : Scans (formatMemory text behind) words memory scanner) : OnFormat text scanner := by
  induction scans with
  | refl => exact .start text
  | tail _ stepped on =>
      obtain before | last := Nat.lt_or_eq_of_le on.within
      · obtain ⟨target, expected, -, next⟩ := on.step behind words memory before
        obtain rfl := Option.some.inj (expected.symm.trans stepped)
        exact next
      · obtain ⟨-, -, ended⟩ | ⟨incomplete, -⟩ := on.atEnd behind words memory last
        · exact nomatch ended.symm.trans stepped
        · exact nomatch complete.symm.trans incomplete

theorem scans_end (text : CString) (behind : Nat → UInt8) (words : Nat → UInt32)
    (memory : Memory) :
    ∃ last, Scans (formatMemory text behind) words memory last ∧ OnFormat text last ∧
      last.buf = text.chars.length :=
  (OnFormat.start text).reaches_end .refl

/-- It goes past the terminator of a format that ends inside a conversion. -/
theorem endsOutside_of_stopsAtEnd (stops : StopsAtEnd text behind words memory) :
    endsOutside false text.chars = true := by
  obtain ⟨last, scans, on, atLast⟩ := scans_end text behind words memory
  obtain ⟨complete, -, -⟩ | ⟨-, target, stepped, past⟩ := on.atEnd behind words memory atLast
  · exact complete
  · have bounded := stops.reads target (scans.next stepped)
    omega

/-- `printf` stops at the end of exactly the formats that do not end inside a
conversion. -/
theorem printf_stopsAtEnd_iff (text : CString) (behind : Nat → UInt8) (words : Nat → UInt32)
    (memory : Memory) :
    StopsAtEnd text behind words memory ↔ endsOutside false text.chars = true := by
  constructor
  · exact endsOutside_of_stopsAtEnd
  · intro complete
    constructor
    · intro scanner reached
      exact (reached.onFormat complete).within
    · obtain ⟨last, scans, on, atLast⟩ := scans_end text behind words memory
      obtain ⟨-, taken, ended⟩ | ⟨incomplete, -⟩ := on.atEnd behind words memory atLast
      · exact ⟨last, ⟨scans, ended⟩, atLast, taken⟩
      · exact nomatch complete.symm.trans incomplete

theorem percent_noNul : (0 : UInt8) ∉ [37] := by
  decide

/-- The format `"%"`. -/
def percentFormat : CString :=
  { chars := [37], noNul := percent_noNul }

/-- Memory with an `A` behind its terminator. -/
def letterBehind (i : Nat) : UInt8 :=
  if i = 2 then 65 else 0

/-- There `printf("%")` prints the `A` and returns 3. -/
theorem printf_overruns :
    Returns (formatMemory percentFormat letterBehind) (fun _ => 0) (fun _ => 0) ⟨3, 0, none, [65]⟩ ∧
      ¬ StopsAtEnd percentFormat letterBehind (fun _ => 0) fun _ => 0 := by
  have first : printfStep (formatMemory percentFormat letterBehind) (fun _ => 0) (fun _ => 0)
      .start = some ⟨1, 0, some false, []⟩ := by decide
  have second : printfStep (formatMemory percentFormat letterBehind) (fun _ => 0) (fun _ => 0)
      ⟨1, 0, some false, []⟩ = some ⟨2, 0, none, []⟩ := by decide
  have third : printfStep (formatMemory percentFormat letterBehind) (fun _ => 0) (fun _ => 0)
      ⟨2, 0, none, []⟩ = some ⟨3, 0, none, [65]⟩ := by decide
  constructor
  · have started : Scans (formatMemory percentFormat letterBehind) (fun _ => 0) (fun _ => 0)
        .start := .refl
    exact ⟨((started.next first).next second).next third, by decide⟩
  · intro stops
    exact nomatch endsOutside_of_stopsAtEnd stops

end PonyOS.Terminal
