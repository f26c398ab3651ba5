import PonyOS.Terminal.Switching

/-!
# What `terminal_write` prints and stores

The text of a write goes through the row of its terminal in `print_buffer`: as
many bytes as the row holds are copied there, a zero is stored behind them, and
they are printed.  The result is the count of the caller, and the zero behind a
full row is the first byte of the next one.
-/

namespace PonyOS.Terminal

open PonyOS.Lib.Loop
open PonyOS.Lib.Word
open PonyOS.Paging

/-- The clamp of `terminal_write`. -/
def writeLim (count : Int) : Int :=
  if count < printLim then count else printLim

theorem writeLim_eq (count : Int) : writeLim count = min count 2050 := by
  unfold writeLim printLim
  omega

/-! ## The characters that are printed -/

/-- `puts_scroll` with a record of the characters that it passes to
`putc_scroll`. -/
def putsScrollLogged (state : Console × List UInt8) (s : Nat → UInt8) (len : Int) :
    Console × List UInt8 :=
  let lim := if len = -1 then (FileSystem.strlen s FileSystem.addressSpace : Int) else len
  forUpTo lim.toNat
    (fun index state => (state.1.putcScroll (s index), state.2 ++ [s index])) state

/-- The record does not change what is printed. -/
theorem putsScrollLogged_fst (state : Console × List UInt8) (s : Nat → UInt8) (len : Int) :
    (putsScrollLogged state s len).1 = state.1.putsScroll s len := by
  unfold putsScrollLogged Console.putsScroll
  simp only
  induction (if len = -1 then (FileSystem.strlen s FileSystem.addressSpace : Int)
    else len).toNat with
  | zero => rfl
  | succ n ih => simp only [forUpTo_succ, ih]

theorem putsScrollLogged_snd (state : Console × List UInt8) (s : Nat → UInt8) {len : Int}
    (nonneg : 0 ≤ len) :
    (putsScrollLogged state s len).2 = state.2 ++ (List.range len.toNat).map s := by
  have isLength : len ≠ -1 := by omega
  unfold putsScrollLogged
  simp only [if_neg isLength]
  induction len.toNat with
  | zero => simp
  | succ n ih =>
      simp only [forUpTo_succ, ih, List.range_succ, List.map_append, List.append_assoc,
        List.map_singleton]

/-- The row that `terminal_write` leaves for a text of `lim` bytes. -/
def copiedRow (printBuffer : Nat → UInt8) (row lim : Nat) (buf : Nat → UInt8) : Nat → UInt8 :=
  fun k =>
    if row ≤ k ∧ k < row + lim then buf (k - row)
    else if k = row + lim then 0
    else printBuffer k

/-- `terminal_write` with that record. -/
def Terminals.terminalWriteLogged (terminals : Terminals) (buf : Nat → UInt8) (count : Int) :
    Option (Int × Terminals × List UInt8) :=
  let row := printRow terminals.console.activeTerminal
  let lim := writeLim count
  if lim < 0 then none
  else
    let copied := copiedRow terminals.keyboard.printBuffer row lim.toNat buf
    let printed := putsScrollLogged (terminals.console, []) (fun index => copied (row + index)) lim
    some (count,
      { console := printed.1
        keyboard := { terminals.keyboard with printBuffer := copied } }, printed.2)

/-- Without the record it is `terminal_write`. -/
theorem Terminals.terminalWriteLogged_erased (terminals : Terminals) (buf : Nat → UInt8)
    (count : Int) :
    (terminals.terminalWriteLogged buf count).map (fun result => (result.1, result.2.1)) =
      terminals.terminalWrite buf count := by
  unfold terminalWriteLogged terminalWrite
  by_cases negative : writeLim count < 0
  · have sameNegative := negative
    unfold writeLim at sameNegative
    simp only [if_pos negative, if_pos sameNegative, Option.map_none]
  · have sameNegative := negative
    unfold writeLim at sameNegative
    simp only [if_neg negative, if_neg sameNegative, Option.map_some, putsScrollLogged_fst]
    rfl

/-- A write reads no more of its buffer than it copies. -/
theorem Terminals.terminalWrite_congr {terminals : Terminals} {first second : Nat → UInt8}
    {count : Int} (same : ∀ k, k < (writeLim count).toNat → first k = second k) :
    terminals.terminalWrite second count = terminals.terminalWrite first count := by
  have copied (printBuffer : Nat → UInt8) (row : Nat) :
      copiedRow printBuffer row (writeLim count).toNat second =
        copiedRow printBuffer row (writeLim count).toNat first := by
    funext k
    unfold copiedRow
    by_cases inside : row ≤ k ∧ k < row + (writeLim count).toNat
    · rw [if_pos inside, if_pos inside, same _ (by omega)]
    · rw [if_neg inside, if_neg inside]
  rw [← terminalWriteLogged_erased, ← terminalWriteLogged_erased]
  simp only [terminalWriteLogged, copied]

/-- The result of a write is the length of what it printed of the buffer. -/
def ReportsPrinted (terminals : Terminals) (buf : Nat → UInt8) (count : Int) : Prop :=
  ∃ value target printed,
    terminals.terminalWriteLogged buf count = some (value, target, printed) ∧
      printed = (List.range value.toNat).map buf

theorem terminalWriteLogged_eq (terminals : Terminals) (buf : Nat → UInt8) {count : Int}
    (nonneg : 0 ≤ count) :
    ∃ target, terminals.terminalWriteLogged buf count =
      some (count, target, (List.range (writeLim count).toNat).map buf) := by
  have limNonneg : 0 ≤ writeLim count := by
    rw [writeLim_eq]
    omega
  have text : ∀ (printBuffer : Nat → UInt8) (row : Nat),
      (List.range (writeLim count).toNat).map
        (fun index => copiedRow printBuffer row (writeLim count).toNat buf (row + index)) =
      (List.range (writeLim count).toNat).map buf := by
    intro printBuffer row
    apply List.map_congr_left
    intro index member
    have inside := List.mem_range.mp member
    rw [copiedRow, if_pos (by omega), Nat.add_sub_cancel_left]
  unfold Terminals.terminalWriteLogged
  simp only [if_neg (Int.not_lt.mpr limNonneg), putsScrollLogged_snd _ _ limNonneg,
    List.nil_append, text]
  exact ⟨_, rfl⟩

/-- A text that is longer than a row is not printed to its end. -/
theorem not_reports_of_long (terminals : Terminals) (buf : Nat → UInt8) {count : Int}
    (long : 2050 < count) : ¬ ReportsPrinted terminals buf count := by
  have nonneg : 0 ≤ count := by omega
  obtain ⟨target, written⟩ := terminalWriteLogged_eq terminals buf nonneg
  rintro ⟨value, final, printed, same, printedEq⟩
  rw [written, Option.some.injEq, Prod.mk.injEq, Prod.mk.injEq] at same
  obtain ⟨rfl, -, rfl⟩ := same
  have lengths := congrArg List.length printedEq
  rw [List.length_map, List.length_map, List.length_range, List.length_range,
    writeLim_eq] at lengths
  omega

/-- A write reports what it printed exactly if the row of its terminal holds the
whole text. -/
theorem terminalWrite_reports_iff (terminals : Terminals) (buf : Nat → UInt8) {count : Int}
    (nonneg : 0 ≤ count) : ReportsPrinted terminals buf count ↔ count ≤ 2050 := by
  constructor
  · intro reports
    by_contra long
    exact not_reports_of_long terminals buf (Int.lt_of_not_ge long) reports
  · intro fits
    obtain ⟨target, written⟩ := terminalWriteLogged_eq terminals buf nonneg
    have whole : writeLim count = count := by
      rw [writeLim_eq]
      omega
    rw [whole] at written
    exact ⟨count, target, _, written, rfl⟩

/-- A short text is printed and counted. -/
theorem terminalWrite_reports_short :
    ReportsPrinted (Terminals.boot zeroTables (fun _ => 0) fun _ => 0) (fun _ => 97) 3 :=
  (terminalWrite_reports_iff _ _ (by decide)).mpr (by decide)

/-- A text of one byte more than a row loses that byte, and the result counts it. -/
theorem terminalWrite_loses :
    ¬ ReportsPrinted (Terminals.boot zeroTables (fun _ => 0) fun _ => 0) (fun _ => 97) 2051 :=
  not_reports_of_long _ _ (by decide)

/-! ## The bytes that are stored -/

/-- The stores of `terminal_write` into `print_buffer`: the copy, whose length is
unsigned, and the zero behind it.  The copy of a negative count does not end. -/
def writeStores (terminalId : Nat) (buf : Nat → UInt8) (count : Int) : List Store :=
  let row := printRow terminalId
  let lim := writeLim count
  (List.range (uint32 lim)).map (fun k => { address := row + k, byte := buf k }) ++
    if lim < 0 then [] else [{ address := row + lim.toNat, byte := 0 }]

/-- Where the copy ends, the stores are those of the text and its zero. -/
theorem mem_writeStores {terminalId : Nat} {buf : Nat → UInt8} {count : Int} {store : Store}
    (nonneg : 0 ≤ writeLim count) :
    store ∈ writeStores terminalId buf count ↔
      ∃ k ≤ (writeLim count).toNat, store.address = printRow terminalId + k ∧
        store.byte = if k < (writeLim count).toNat then buf k else 0 := by
  have short : writeLim count ≤ 2050 := by
    rw [writeLim_eq]
    omega
  have length : uint32 (writeLim count) = (writeLim count).toNat := by
    unfold uint32
    omega
  rcases store with ⟨address, byte⟩
  simp only [writeStores, if_neg (Int.not_lt.mpr nonneg), length, List.mem_append, List.mem_map,
    List.mem_range, List.mem_singleton, Store.mk.injEq]
  constructor
  · rintro (⟨k, inText, rfl, rfl⟩ | ⟨rfl, rfl⟩)
    · exact ⟨k, Nat.le_of_lt inText, rfl, (if_pos inText).symm⟩
    · exact ⟨_, Nat.le_refl _, rfl, (if_neg (Nat.lt_irrefl _)).symm⟩
  · rintro ⟨k, inside, rfl, rfl⟩
    by_cases inText : k < (writeLim count).toNat
    · exact .inl ⟨k, inText, rfl, (if_pos inText).symm⟩
    · have atEnd : k = (writeLim count).toNat := by omega
      exact .inr ⟨by rw [atEnd], if_neg inText⟩

section Stores

variable {terminals target : Terminals} {buf : Nat → UInt8} {count value : Int}

theorem terminalWrite_keyboard
    (written : terminals.terminalWrite buf count = some (value, target)) :
    0 ≤ writeLim count ∧ target.keyboard =
      { terminals.keyboard with
        printBuffer := copiedRow terminals.keyboard.printBuffer
          (printRow terminals.console.activeTerminal) (writeLim count).toNat buf } := by
  rw [← Terminals.terminalWriteLogged_erased, Terminals.terminalWriteLogged] at written
  by_cases negative : writeLim count < 0
  · simp only [if_pos negative, Option.map_none] at written
    contradiction
  · simp only [if_neg negative, Option.map_some, Option.some.injEq, Prod.mk.injEq] at written
    rw [← written.2]
    exact ⟨Int.not_lt.mp negative, rfl⟩

/-- What `terminal_write` leaves in `print_buffer` is what these stores leave. -/
theorem terminalWrite_stores
    (written : terminals.terminalWrite buf count = some (value, target)) :
    (∀ store ∈ writeStores terminals.console.activeTerminal buf count,
        target.keyboard.printBuffer store.address = store.byte) ∧
      ∀ k, (∀ store ∈ writeStores terminals.console.activeTerminal buf count,
          store.address ≠ k) →
        target.keyboard.printBuffer k = terminals.keyboard.printBuffer k := by
  obtain ⟨nonneg, keyboard⟩ := terminalWrite_keyboard written
  rw [keyboard]
  constructor
  · intro store member
    obtain ⟨k, inside, address, byte⟩ := (mem_writeStores nonneg).mp member
    rw [address, byte]
    simp only [copiedRow]
    by_cases inText : k < (writeLim count).toNat
    · rw [if_pos (by omega), if_pos inText, Nat.add_sub_cancel_left]
    · rw [if_neg (by omega), if_pos (by omega), if_neg inText]
  · intro k avoids
    have outside : ¬ (printRow terminals.console.activeTerminal ≤ k ∧
        k ≤ printRow terminals.console.activeTerminal + (writeLim count).toNat) := by
      rintro ⟨below, above⟩
      refine avoids { address := k, byte := _ } ((mem_writeStores nonneg).mpr
        ⟨k - printRow terminals.console.activeTerminal, ?_, ?_, rfl⟩) rfl
      · omega
      · exact (Nat.add_sub_cancel' below).symm
    simp only [copiedRow]
    rw [if_neg (by omega), if_neg (by omega)]

end Stores

/-- A write stays in the row of its terminal: every byte it stores is there, the
other rows and all flags are as before, and a negative count stores nothing. -/
structure StaysInRow (terminals : Terminals) (buf : Nat → UInt8) (count : Int) : Prop where
  inside : ∀ store ∈ writeStores terminals.console.activeTerminal buf count,
    printRow terminals.console.activeTerminal ≤ store.address ∧
      store.address < printRow terminals.console.activeTerminal + printLim
  others : ∀ value target, terminals.terminalWrite buf count = some (value, target) →
    (∀ t k, t ≠ terminals.console.activeTerminal → k < printLim →
      target.keyboard.printBuffer (printRow t + k) =
        terminals.keyboard.printBuffer (printRow t + k)) ∧
    target.keyboard.terminalReadReady = terminals.keyboard.terminalReadReady
  negative : count < 0 → writeStores terminals.console.activeTerminal buf count = []

theorem staysInRow_of_fits (terminals : Terminals) (buf : Nat → UInt8) {count : Int}
    (nonneg : 0 ≤ count) (fits : count < 2050) : StaysInRow terminals buf count := by
  have limEq : writeLim count = count := by
    rw [writeLim_eq]
    omega
  have limNonneg : 0 ≤ writeLim count := by
    rw [limEq]
    exact nonneg
  have inside : ∀ store ∈ writeStores terminals.console.activeTerminal buf count,
      printRow terminals.console.activeTerminal ≤ store.address ∧
        store.address < printRow terminals.console.activeTerminal + printLim := by
    intro store member
    obtain ⟨k, within, address, -⟩ := (mem_writeStores limNonneg).mp member
    rw [limEq] at within
    unfold printLim
    omega
  constructor
  · exact inside
  · intro value target written
    constructor
    · intro t k other inRow
      apply (terminalWrite_stores written).2
      intro store member same
      have within := inside store member
      unfold printRow printLim at *
      rcases Nat.lt_or_gt_of_ne other with below | above
      · omega
      · omega
    · rw [(terminalWrite_keyboard written).2]
  · intro negative
    omega

/-- A count of a row or more stores the zero behind the row. -/
theorem not_staysInRow_of_long (terminals : Terminals) (buf : Nat → UInt8) {count : Int}
    (long : 2050 ≤ count) : ¬ StaysInRow terminals buf count := by
  intro stays
  have limEq : writeLim count = 2050 := by
    rw [writeLim_eq]
    omega
  have limNonneg : 0 ≤ writeLim count := by omega
  have within := (stays.inside
    { address := printRow terminals.console.activeTerminal + 2050, byte := 0 }
    ((mem_writeStores limNonneg).mpr ⟨2050, by omega, rfl, by rw [limEq]; rfl⟩)).2
  exact absurd within (Nat.lt_irrefl _)

/-- A negative count stores from the first byte on. -/
theorem not_staysInRow_of_negative (terminals : Terminals) (buf : Nat → UInt8) {count : Int}
    (lower : -2147483648 ≤ count) (negative : count < 0) : ¬ StaysInRow terminals buf count := by
  intro stays
  have nothing := congrArg List.length (stays.negative negative)
  have limEq : writeLim count = count := by
    rw [writeLim_eq]
    omega
  have length : 0 < uint32 count := by
    unfold uint32
    omega
  simp only [writeStores, limEq, if_pos negative, List.append_nil, List.length_map,
    List.length_range, List.length_nil] at nothing
  omega

/-- A write stays in its row exactly if its count is not negative and leaves room
for the zero. -/
theorem terminalWrite_staysInRow_iff (terminals : Terminals) (buf : Nat → UInt8) {count : Int}
    (lower : -2147483648 ≤ count) (_upper : count < 2147483648) :
    StaysInRow terminals buf count ↔ 0 ≤ count ∧ count < 2050 := by
  constructor
  · intro stays
    constructor
    · by_contra negative
      exact not_staysInRow_of_negative terminals buf lower (Int.lt_of_not_ge negative) stays
    · by_contra long
      exact not_staysInRow_of_long terminals buf (Int.le_of_not_gt long) stays
  · rintro ⟨nonneg, fits⟩
    exact staysInRow_of_fits terminals buf nonneg fits

/-- A short text stays in its row. -/
theorem terminalWrite_staysInRow_short :
    StaysInRow (Terminals.boot zeroTables (fun _ => 0) fun _ => 0) (fun _ => 97) 3 :=
  (terminalWrite_staysInRow_iff _ _ (by decide) (by decide)).mpr (by decide)

/-- A text of the size of the row puts its zero on the next row. -/
theorem terminalWrite_overruns :
    ¬ StaysInRow (Terminals.boot zeroTables (fun _ => 0) fun _ => 0) (fun _ => 97) 2050 :=
  not_staysInRow_of_long _ _ (by decide)

end PonyOS.Terminal
