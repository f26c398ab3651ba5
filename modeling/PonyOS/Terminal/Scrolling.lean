import PonyOS.Terminal.Sheet
import PonyOS.Terminal.Switching

/-!
# What a scrolled screen shows

`putc_scroll` lets the row run one past the bottom when the last row is full, and
scrolls at the next character.  A newline at that moment moves on by a row of its
own, but `shift_up` sets the row absolutely, so the two rows become one.  The
screen shows the last lines of the page without the lines lost in this way.
-/

namespace PonyOS.Terminal

open PonyOS.Lib.Loop
open PonyOS.Lib.Word
open PonyOS.Paging

/-! ## Cells of a page -/

namespace Page

/-- Character and attribute of a cell. -/
def cellAt (page : Page) (row column : Nat) : UInt8 × UInt8 :=
  (page.get (2 * (80 * row + column)), page.get (2 * (80 * row + column) + 1))

theorem get_of_lt (page : Page) {offset : Nat} (inside : offset < 4096) :
    page.get offset = page ⟨offset, inside⟩ :=
  dif_pos inside

theorem cellAt_putCell (page : Page) {row column x y : Nat} (rowLt : row < 25)
    (columnLt : column < 80) (xLt : x < 80) (c : UInt8) :
    (page.putCell (80 * y + x) c).cellAt row column =
      if row = y ∧ column = x then (c, attrib) else page.cellAt row column := by
  have charIn : 2 * (80 * row + column) < 4096 := by omega
  have attribIn : 2 * (80 * row + column) + 1 < 4096 := by omega
  simp only [cellAt, get_of_lt _ charIn, get_of_lt _ attribIn, putCell, set]
  by_cases here : row = y ∧ column = x
  · rw [if_pos here]
    obtain ⟨rfl, rfl⟩ := here
    apply Prod.ext
    · dsimp only
      rw [if_neg (by omega), if_pos rfl]
    · exact if_pos rfl
  · rw [if_neg here, if_neg (by omega), if_neg (by omega), if_neg (by omega), if_neg (by omega)]

theorem cellAt_scrollUp (page : Page) {row column : Nat} (rowLt : row < 25)
    (columnLt : column < 80) :
    page.scrollUp.cellAt row column =
      (if row < 24 then (page.cellAt (row + 1) column).1 else space, attrib) := by
  have charIn : 2 * (80 * row + column) < 4096 := by omega
  have attribIn : 2 * (80 * row + column) + 1 < 4096 := by omega
  simp only [cellAt, get_of_lt _ charIn, get_of_lt _ attribIn, scrollUp]
  apply Prod.ext
  · dsimp only
    rw [if_pos (by omega), if_neg (by omega)]
    by_cases above : row < 24
    · rw [if_pos above, if_pos (by omega)]
      congr 1
      omega
    · rw [if_neg above, if_neg (by omega)]
  · dsimp only
    rw [if_pos (by omega), if_pos (by omega)]

theorem cellAt_blank (page : Page) {row column : Nat} (rowLt : row < 25)
    (columnLt : column < 80) : page.blank.cellAt row column = (space, attrib) := by
  have charIn : 2 * (80 * row + column) < 4096 := by omega
  have attribIn : 2 * (80 * row + column) + 1 < 4096 := by omega
  simp only [cellAt, get_of_lt _ charIn, get_of_lt _ attribIn, blank]
  apply Prod.ext
  · dsimp only
    rw [if_pos (by omega), if_neg (by omega)]
  · dsimp only
    rw [if_pos (by omega), if_pos (by omega)]

/-- A page shows lines, the first of them in row `bottom`. -/
def Shows (page : Page) (lines : List TextLine) (bottom : Nat) : Prop :=
  ∀ row column, row < 25 → column < 80 →
    page.cellAt row column =
      (if row ≤ bottom then (lines.getD (bottom - row) (.empty false)).cell column else space,
        attrib)

/-- An empty line below the others needs no change. -/
theorem Shows.push {page : Page} {lines : List TextLine} {bottom : Nat} (wrapped : Bool)
    (shows : page.Shows lines bottom) :
    page.Shows (.empty wrapped :: lines) (bottom + 1) := by
  intro row column rowLt columnLt
  rw [shows row column rowLt columnLt]
  by_cases inside : row ≤ bottom
  · have next : bottom + 1 - row = bottom - row + 1 := by omega
    rw [if_pos inside, if_pos (by omega), next, List.getD_cons_succ]
  · rw [if_neg inside]
    by_cases last : row = bottom + 1
    · rw [if_pos (by omega), last, Nat.sub_self, List.getD_cons_zero, TextLine.cell_empty]
    · rw [if_neg (by omega)]

/-- A line that reads the same may stand for another. -/
theorem Shows.replace {page : Page} {lines : List TextLine} {bottom : Nat} {wrapped : Bool}
    (other : Bool) (shows : page.Shows (.empty wrapped :: lines) bottom) :
    page.Shows (.empty other :: lines) bottom := by
  intro row column rowLt columnLt
  rw [shows row column rowLt columnLt]
  cases bottom - row with
  | zero => rfl
  | succ n => rfl

/-- A scroll brings an empty line below the last row onto the screen. -/
theorem Shows.scrollUp {page : Page} {lines : List TextLine} {wrapped : Bool}
    (shows : page.Shows (.empty wrapped :: lines) 25) :
    page.scrollUp.Shows (.empty wrapped :: lines) 24 := by
  intro row column rowLt columnLt
  rw [page.cellAt_scrollUp rowLt columnLt, if_pos (Nat.le_of_lt_succ rowLt)]
  by_cases above : row < 24
  · have next : 25 - (row + 1) = 24 - row := by omega
    rw [if_pos above, shows (row + 1) column (by omega) columnLt, if_pos (by omega), next]
  · have last : row = 24 := by omega
    rw [if_neg above, last]
    rfl

theorem Shows.putCell {page : Page} {line : TextLine} {above : List TextLine} {bottom : Nat}
    (shows : page.Shows (line :: above) bottom) (bottomLt : bottom < 25)
    (fits : line.text.length < 80) (c : UInt8) :
    (page.putCell (80 * bottom + line.text.length) c).Shows
      (line.add c :: above) bottom := by
  intro row column rowLt columnLt
  rw [page.cellAt_putCell rowLt columnLt fits, shows row column rowLt columnLt]
  by_cases here : row = bottom ∧ column = line.text.length
  · obtain ⟨rfl, rfl⟩ := here
    rw [if_pos ⟨rfl, rfl⟩, if_pos (Nat.le_refl _), Nat.sub_self, List.getD_cons_zero]
    simp [TextLine.cell, TextLine.add]
  · rw [if_neg here]
    by_cases inside : row ≤ bottom
    · rw [if_pos inside, if_pos inside]
      cases distance : bottom - row with
      | succ n => rfl
      | zero =>
          have other : column ≠ line.text.length := fun same => here ⟨by omega, same⟩
          rw [List.getD_cons_zero, List.getD_cons_zero, TextLine.cell_add_of_ne c other]
    · rw [if_neg inside, if_neg inside]

end Page

/-! ## The screen of a page of text -/

namespace Sheet

/-- The lines that the screen goes by. -/
def lines (sheet : Sheet) : List TextLine :=
  sheet.current :: kept sheet.above

/-- The row of the current line once it is on the screen. -/
def row (sheet : Sheet) : Nat :=
  min (kept sheet.above).length 24

/-- The row of the cursor. -/
def bottom (sheet : Sheet) : Nat :=
  if Swallowed sheet.current sheet.above then 25 else sheet.row

/-- A screen holds the last lines of a page of text, with the cursor behind the
last character. -/
structure Tracks (sheet : Sheet) (screen : Screen) : Prop where
  fits : sheet.current.text.length < 80
  x : screen.x = sheet.current.text.length
  y : screen.y = sheet.bottom
  page : screen.page.Shows sheet.lines sheet.bottom

variable {sheet : Sheet} {screen : Screen}

theorem row_of_swallowed (swallowed : Swallowed sheet.current sheet.above) : sheet.row = 24 := by
  have long := swallowed.2
  have kept := min_length_kept sheet.above
  unfold row
  omega

/-- A scroll brings the current line onto the screen. -/
theorem Tracks.scroll (tracks : sheet.Tracks screen) :
    screen.scroll.x = sheet.current.text.length ∧ screen.scroll.y = sheet.row ∧
      screen.scroll.page.Shows sheet.lines sheet.row := by
  obtain ⟨-, x, y, page⟩ := tracks
  unfold bottom at y page
  by_cases swallowed : Swallowed sheet.current sheet.above
  · rw [if_pos swallowed] at y page
    rw [Screen.scroll, if_pos (by omega), row_of_swallowed swallowed]
    rw [lines, swallowed.1] at page ⊢
    exact ⟨rfl, rfl, page.scrollUp⟩
  · rw [if_neg swallowed] at y page
    have small : sheet.row ≤ 24 := Nat.min_le_right _ _
    rw [Screen.scroll, if_neg (by omega)]
    exact ⟨x, y, page⟩

theorem bottom_wrapped (line : TextLine) (c : UInt8) (above : List TextLine) :
    bottom { current := .empty true, above := line.add c :: above } =
      min (kept above).length 24 + 1 := by
  have length := min_length_kept above
  have keptLine := kept_of_not_swallowed (not_swallowed_add line c above)
  unfold bottom row
  by_cases long : 24 ≤ above.length
  · have swallowed : Swallowed (.empty true) (line.add c :: above) :=
      ⟨rfl, Nat.succ_le_succ long⟩
    rw [if_pos swallowed]
    omega
  · have notSwallowed : ¬ Swallowed (.empty true) (line.add c :: above) :=
      fun swallowed => long (Nat.le_of_succ_le_succ swallowed.2)
    rw [if_neg notSwallowed, keptLine, List.length_cons]
    omega

/-- A printable character is drawn at the end of the current line. -/
theorem Tracks.drawn (tracks : sheet.Tracks screen) {c : UInt8}
    (printable : isNewline c = false) :
    (screen.putChar c).page.Shows (sheet.current.add c :: kept sheet.above) sheet.row := by
  obtain ⟨x, y, page⟩ := tracks.scroll
  have small : sheet.row ≤ 24 := Nat.min_le_right _ _
  have position : (80 * screen.scroll.y + screen.scroll.x).toNat =
      80 * sheet.row + sheet.current.text.length := by omega
  rw [Screen.putChar, printable]
  simp only [Bool.false_eq_true, if_false, position]
  exact page.putCell (Nat.lt_succ_of_le small) tracks.fits c

theorem Tracks.putPrintable (tracks : sheet.Tracks screen) {c : UInt8}
    (printable : isNewline c = false) : (sheet.put c).Tracks (screen.putChar c) := by
  obtain ⟨x, y, -⟩ := tracks.scroll
  have fits := tracks.fits
  have drawn := tracks.drawn printable
  rw [Screen.putChar, printable] at drawn ⊢
  rw [Sheet.put, printable]
  simp only [Bool.false_eq_true, if_false, TextLine.length_add] at drawn ⊢
  by_cases full : sheet.current.text.length + 1 = 80
  · -- The row below becomes the current one; it may lie below the screen.
    have lastColumn : screen.scroll.x = 79 := by omega
    have bottomEq := bottom_wrapped sheet.current c sheet.above
    rw [if_pos full, if_pos lastColumn, if_pos lastColumn]
    constructor
    case fits => exact Nat.succ_pos _
    case x => rfl
    case y =>
      rw [bottomEq, y]
      rfl
    case page =>
      rw [bottomEq, lines, kept_of_not_swallowed (not_swallowed_add _ c _)]
      exact drawn.push true
  · have notLast : screen.scroll.x ≠ 79 := by omega
    have bottomEq : bottom { sheet with current := sheet.current.add c } = sheet.row :=
      if_neg (not_swallowed_add _ c _)
    rw [if_neg full, if_neg notLast, if_neg notLast]
    constructor
    case fits =>
      rw [TextLine.length_add]
      omega
    case x =>
      rw [TextLine.length_add, x]
      rfl
    case y =>
      rw [bottomEq]
      exact y
    case page =>
      rw [bottomEq]
      exact drawn

theorem Tracks.putNewline (tracks : sheet.Tracks screen) {c : UInt8}
    (newline : isNewline c = true) : (sheet.put c).Tracks (screen.putChar c) := by
  obtain ⟨-, -, y, page⟩ := tracks
  have notSwallowed (above : List TextLine) : ¬ Swallowed (.empty false) above :=
    fun swallowed => nomatch swallowed.1
  have bottomEq (above : List TextLine) :
      bottom { current := .empty false, above := above } = min (kept above).length 24 :=
    if_neg (notSwallowed above)
  rw [Sheet.put, Screen.putChar, if_pos newline, if_pos newline, Screen.scroll]
  unfold bottom at y page
  by_cases swallowed : Swallowed sheet.current sheet.above
  · -- The cursor is below the screen already, and the new row is the same one.
    rw [if_pos swallowed] at y page
    have keptAbove : kept (sheet.current :: sheet.above) = kept sheet.above := if_pos swallowed
    have rowEq : min (kept sheet.above).length 24 = 24 := row_of_swallowed swallowed
    rw [lines, swallowed.1] at page
    rw [if_pos (by simp only; omega)]
    constructor
    case fits => exact Nat.succ_pos _
    case x => rfl
    case y =>
      rw [bottomEq, keptAbove, rowEq]
      rfl
    case page =>
      rw [bottomEq, lines, keptAbove, rowEq]
      exact page.scrollUp.replace false
  · rw [if_neg swallowed] at y page
    have keptAbove := kept_of_not_swallowed swallowed
    have pushed := page.push false
    have below : sheet.row = min (kept sheet.above).length 24 := rfl
    by_cases last : screen.y + 1 ≥ 25
    · have rowEq : sheet.row = 24 := by omega
      rw [if_pos last]
      rw [rowEq] at pushed
      constructor
      case fits => exact Nat.succ_pos _
      case x => rfl
      case y =>
        rw [bottomEq, keptAbove, List.length_cons]
        simp only
        omega
      case page =>
        have bottom24 : min (kept (sheet.current :: sheet.above)).length 24 = 24 := by
          rw [keptAbove, List.length_cons]
          omega
        rw [bottomEq, bottom24, lines, keptAbove]
        exact pushed.scrollUp
    · have nextRow : min (kept (sheet.current :: sheet.above)).length 24 = sheet.row + 1 := by
        rw [keptAbove, List.length_cons]
        omega
      rw [if_neg last]
      constructor
      case fits => exact Nat.succ_pos _
      case x => rfl
      case y =>
        rw [bottomEq, nextRow]
        simp only
        omega
      case page =>
        rw [bottomEq, nextRow, lines, keptAbove]
        exact pushed

/-- Every character keeps the screen on the page. -/
theorem Tracks.put (tracks : sheet.Tracks screen) (c : UInt8) :
    (sheet.put c).Tracks (screen.putChar c) := by
  cases newline : isNewline c with
  | false => exact tracks.putPrintable newline
  | true => exact tracks.putNewline newline

theorem Tracks.putAll (tracks : sheet.Tracks screen) (text : List UInt8) :
    (text.foldl Sheet.put sheet).Tracks (text.foldl Screen.putChar screen) := by
  induction text generalizing sheet screen with
  | nil => exact tracks
  | cons c rest ih => exact ih (tracks.put c)

end Sheet

/-! ## Windows -/

/-- The screen is empty and its cursor is home. -/
structure Screen.Cleared (screen : Screen) : Prop where
  x : screen.x = 0
  y : screen.y = 0
  cells : ∀ row column, row < 25 → column < 80 → screen.page.cellAt row column = (space, attrib)

theorem Screen.Cleared.tracks {screen : Screen} (cleared : screen.Cleared) :
    Sheet.start.Tracks screen := by
  constructor
  case fits => exact Nat.succ_pos _
  case x => exact cleared.x
  case y => exact cleared.y
  case page =>
    intro row column rowLt columnLt
    rw [cleared.cells row column rowLt columnLt]
    simp only [Prod.mk.injEq, and_true]
    split
    · cases Sheet.start.bottom - row <;> rfl
    · rfl

/-- The screen is the window onto the page that ends with the row of the last
character, row `r`: its rows are `r - 24` to `r`, or `0` to `24` if there are
fewer. -/
def Screen.ShowsWindow (screen : Screen) (sheet : Sheet) : Prop :=
  let rows := sheet.upToLast.reverse
  let r := rows.length - 1
  ∀ row column, row < 25 → column < 80 →
    screen.page.cellAt row column =
      ((rows.getD (r - 24 + row) (.empty false)).cell column, attrib)

/-- Row `row` of the window, counted from the last line. -/
theorem getD_window {lines : List TextLine} (nonempty : lines ≠ []) {row column : Nat}
    (rowLt : row < 25) :
    (lines.reverse.getD (lines.length - 1 - 24 + row) (.empty false)).cell column =
      if row ≤ min (lines.length - 1) 24 then
        (lines.getD (min (lines.length - 1) 24 - row) (.empty false)).cell column
      else space := by
  have positive : 0 < lines.length := List.length_pos_iff.mpr nonempty
  rw [List.getD_eq_getElem?_getD, List.getD_eq_getElem?_getD]
  by_cases inside : row ≤ min (lines.length - 1) 24
  · have index : lines.length - 1 - (lines.length - 1 - 24 + row) =
        min (lines.length - 1) 24 - row := by omega
    rw [if_pos inside, List.getElem?_reverse (by omega), index]
  · rw [if_neg inside, List.getElem?_eq_none (by rw [List.length_reverse]; omega)]
    rfl

/-- A page shows its last line in row `r`, or in the last row. -/
theorem showsWindow_iff (screen : Screen) {sheet : Sheet} (nonempty : sheet.upToLast ≠ []) :
    screen.ShowsWindow sheet ↔
      screen.page.Shows sheet.upToLast (min (sheet.upToLast.length - 1) 24) := by
  simp only [Screen.ShowsWindow, Page.Shows, List.length_reverse]
  constructor
  · intro shows row column rowLt columnLt
    rw [shows row column rowLt columnLt, getD_window nonempty rowLt]
  · intro shows row column rowLt columnLt
    rw [shows row column rowLt columnLt, getD_window nonempty rowLt]

theorem getElem?_map_cells {lines : List TextLine} {i : Nat} (inside : i < lines.length) :
    (lines.map TextLine.cells)[i]? = some (lines.getD i (.empty false)).cells := by
  rw [List.getElem?_map, List.getD_eq_getElem?_getD, List.getElem?_eq_getElem inside]
  rfl

/-- Where a page shows lines, it shows exactly those that read the same. -/
theorem Page.Shows.congr_iff {page : Page} {first second : List TextLine} {bottom : Nat}
    (shows : page.Shows first bottom) (bottomLt : bottom < 25) (firstLong : bottom < first.length)
    (secondLong : bottom < second.length) :
    page.Shows second bottom ↔
      (second.map TextLine.cells).take (bottom + 1) =
        (first.map TextLine.cells).take (bottom + 1) := by
  constructor
  · intro showsSecond
    apply List.ext_getElem?
    intro i
    by_cases inside : i < bottom + 1
    · rw [List.getElem?_take_of_lt inside, List.getElem?_take_of_lt inside,
        getElem?_map_cells (by omega), getElem?_map_cells (by omega), Option.some.injEq,
        TextLine.cells_eq_iff]
      intro column columnLt
      have both := (showsSecond (bottom - i) column (by omega) columnLt).symm.trans
        (shows (bottom - i) column (by omega) columnLt)
      have index : bottom - (bottom - i) = i := by omega
      rw [if_pos (by omega), if_pos (by omega), index] at both
      exact congrArg Prod.fst both
    · rw [List.getElem?_eq_none (by simp; omega), List.getElem?_eq_none (by simp; omega)]
  · intro same row column rowLt columnLt
    rw [shows row column rowLt columnLt]
    by_cases inside : row ≤ bottom
    · have entry := congrArg (fun cells => cells[bottom - row]?) same
      rw [List.getElem?_take_of_lt (by omega), List.getElem?_take_of_lt (by omega),
        getElem?_map_cells (by omega), getElem?_map_cells (by omega), Option.some.injEq,
        TextLine.cells_eq_iff] at entry
      rw [if_pos inside, if_pos inside, entry column columnLt]
    · rw [if_neg inside, if_neg inside]

/-- A printable character at the end of a text: the screen is the window onto the
page exactly if no swallowed line shows in it. -/
theorem Sheet.Tracks.showsWindow_iff {sheet : Sheet} {screen : Screen}
    (tracks : sheet.Tracks screen) {c : UInt8} (printable : isNewline c = false) :
    (screen.putChar c).ShowsWindow (sheet.put c) ↔ ShowsWhole 25 (sheet.put c).upToLast := by
  have drawn := tracks.drawn printable
  have keptEq := kept_of_not_swallowed (not_swallowed_add sheet.current c sheet.above)
  have lengths := min_length_kept (sheet.current.add c :: sheet.above)
  have listed := sheet.upToLast_put printable
  rw [Terminal.showsWindow_iff _ (by rw [listed]; exact List.cons_ne_nil _ _), listed,
    ← take_cells_kept_iff _ (Nat.le_refl 25)]
  have keptLength : (kept (sheet.current.add c :: sheet.above)).length =
      (kept sheet.above).length + 1 := by
    rw [keptEq, List.length_cons]
  rw [← keptEq] at drawn
  generalize sheet.current.add c :: sheet.above = lines at *
  have bottomEq : sheet.row = min (lines.length - 1) 24 := by
    unfold Sheet.row
    omega
  rw [bottomEq] at drawn
  rw [drawn.congr_iff (by omega) (by omega) (by omega)]
  -- A page with fewer lines is taken whole.
  have whole : (lines.map TextLine.cells).take (min (lines.length - 1) 24 + 1) =
      (lines.map TextLine.cells).take 25 := by
    rw [List.take_eq_take_iff, List.length_map]
    omega
  have keptWhole : ((kept lines).map TextLine.cells).take (min (lines.length - 1) 24 + 1) =
      ((kept lines).map TextLine.cells).take 25 := by
    rw [List.take_eq_take_iff, List.length_map]
    omega
  rw [whole, keptWhole]

/-! ## puts_scroll -/

/-- The characters that `puts_scroll` prints. -/
def printedText (s : Nat → UInt8) (len : Int) : List UInt8 :=
  (List.range (if len = -1 then (FileSystem.strlen s FileSystem.addressSpace : Int)
    else len).toNat).map s

/-- `puts_scroll` puts the characters on the active terminal. -/
theorem putsScroll_logicalScreen {console : Console} {keyboard : Keyboard}
    (driven : Driven console keyboard) (s : Nat → UInt8) (len : Int) :
    (console.putsScroll s len).logicalScreen console.activeTerminal =
      (printedText s len).foldl Screen.putChar (console.logicalScreen console.activeTerminal) := by
  unfold Console.putsScroll printedText
  dsimp only
  generalize (if len = -1 then _ else len).toNat = lim
  let printed (n : Nat) (state : Console) : Prop :=
    Driven state keyboard ∧ state.activeTerminal = console.activeTerminal ∧
      state.logicalScreen console.activeTerminal =
        ((List.range n).map s).foldl Screen.putChar (console.logicalScreen console.activeTerminal)
  suffices all :
      printed lim (forUpTo lim (fun index state => state.putcScroll (s index)) console) by
    exact all.2.2
  apply forUpTo_rule printed
  · exact ⟨driven, rfl, rfl⟩
  · rintro index state - ⟨stateDriven, sameActive, screen⟩
    have painted := stateDriven.coherent.putcScroll_eq (s index)
    have fields := state.paint_fields state.activeTerminal
      ((state.logicalScreen state.activeTerminal).putChar (s index))
    rw [← painted] at fields
    refine ⟨stateDriven.output (s index), fields.2.1.trans sameActive, ?_⟩
    rw [painted, sameActive, Console.paint_logicalScreen_self, screen, List.range_succ,
      List.map_append, List.foldl_append]
    rfl

/-- The last character of a text is no newline. -/
def EndsPrintable (text : List UInt8) : Prop :=
  ∃ before c, text = before ++ [c] ∧ isNewline c = false

theorem Screen.Cleared.showsWindow_iff {screen : Screen} (cleared : screen.Cleared)
    {text : List UInt8} (printable : EndsPrintable text) :
    (text.foldl Screen.putChar screen).ShowsWindow (Sheet.render text) ↔
      ShowsWhole 25 (Sheet.render text).upToLast := by
  obtain ⟨before, c, rfl, isPrintable⟩ := printable
  have tracks := cleared.tracks.putAll before
  rw [Sheet.render, List.foldl_append, List.foldl_append]
  exact tracks.showsWindow_iff isPrintable

/-- What `puts_scroll` leaves on a cleared terminal is the end of its text exactly
if no line that the scroll swallowed would be in sight, or only blank ones above
it. -/
theorem putsScroll_showsWindow_iff (paging : PageTables) (memory : Memory)
    (printBuffer : Nat → UInt8) (events : List Event) (s : Nat → UInt8) (len : Int)
    (cleared :
      let console := (events.foldl Terminals.step (.boot paging memory printBuffer)).console
      (console.logicalScreen console.activeTerminal).Cleared)
    (printable : EndsPrintable (printedText s len)) :
    let console := (events.foldl Terminals.step (.boot paging memory printBuffer)).console
    ((console.putsScroll s len).logicalScreen console.activeTerminal).ShowsWindow
        (Sheet.render (printedText s len)) ↔
      ShowsWhole 25 (Sheet.render (printedText s len)).upToLast := by
  intro console
  have driven := (run_simulates paging memory printBuffer events).1
  rw [putsScroll_logicalScreen driven]
  exact cleared.showsWindow_iff printable

/-- After `clear` the displayed terminal is empty. -/
theorem Console.Coherent.clear_cleared {console : Console} (coherent : console.Coherent) :
    (console.clear.logicalScreen console.displayTerminal).Cleared := by
  rw [coherent.clear_eq, paint_logicalScreen_self]
  constructor
  case x => rfl
  case y => rfl
  case cells =>
    intro row column rowLt columnLt
    exact (console.logicalScreen console.displayTerminal).page.cellAt_blank rowLt columnLt

/-- The terminals boot with an empty screen. -/
theorem boot_cleared (paging : PageTables) (memory : Memory) (printBuffer : Nat → UInt8) :
    let console := (Terminals.boot paging memory printBuffer).console
    (console.logicalScreen console.activeTerminal).Cleared := by
  have coherent := Console.boot_coherent paging memory
  have cleared := coherent.clear_cleared
  have fields := (Console.boot paging memory).paint_fields 0
    ((Console.boot paging memory).logicalScreen 0).erase
  have cleanEq : (Console.boot paging memory).clear =
      (Console.boot paging memory).paint 0 ((Console.boot paging memory).logicalScreen 0).erase :=
    coherent.clear_eq
  rw [← cleanEq] at fields
  have active : (Console.boot paging memory).clear.activeTerminal = 0 := fields.2.1
  intro console
  change ((Console.boot paging memory).clear.logicalScreen
    (Console.boot paging memory).clear.activeTerminal).Cleared
  rw [active]
  exact cleared

/-- One character at boot. -/
theorem putsScroll_showsWindow_letter :
    let console := (Terminals.boot zeroTables (fun _ => 0) fun _ => 0).console
    ((console.putsScroll (fun _ => 65) 1).logicalScreen console.activeTerminal).ShowsWindow
      (Sheet.render [65]) := by
  have printable : EndsPrintable (printedText (fun _ => 65) 1) := ⟨[], 65, rfl, rfl⟩
  exact (putsScroll_showsWindow_iff zeroTables (fun _ => 0) (fun _ => 0) [] (fun _ => 65) 1
    (boot_cleared zeroTables (fun _ => 0) fun _ => 0) printable).mpr (by decide)

/-- Twenty-four newlines, a full row, a newline and an `A`. -/
def overflowText (i : Nat) : UInt8 :=
  if i < 24 then 10 else if i < 104 then 120 else if i = 104 then 10 else 65

theorem overflowText_printable : EndsPrintable (printedText overflowText 106) :=
  ⟨(List.range 105).map overflowText, 65, by decide +kernel, rfl⟩

theorem overflowText_not_showsWhole :
    ¬ ShowsWhole 25 (Sheet.render (printedText overflowText 106)).upToLast := by
  decide +kernel

/-- The empty line behind the full row is lost, and the rows above it stand one
too low. -/
theorem putsScroll_swallows :
    let console := (Terminals.boot zeroTables (fun _ => 0) fun _ => 0).console
    (console.logicalScreen console.activeTerminal).Cleared ∧
      EndsPrintable (printedText overflowText 106) ∧
      ¬ ((console.putsScroll overflowText 106).logicalScreen console.activeTerminal).ShowsWindow
        (Sheet.render (printedText overflowText 106)) := by
  intro console
  have cleared := boot_cleared zeroTables (fun _ => 0) fun _ => 0
  have driven := Terminals.boot_driven zeroTables (fun _ => 0) fun _ => 0
  refine ⟨cleared, overflowText_printable, ?_⟩
  rw [putsScroll_logicalScreen driven, cleared.showsWindow_iff overflowText_printable]
  exact overflowText_not_showsWhole

end PonyOS.Terminal
