import PonyOS.Terminal.Console

/-!
# Private screens

What a terminal is for: a page of text and a cursor, with one routine that
puts a character.  The second half shows that the console routines, run
through any address that the page tables map to a frame, act on that frame
exactly as the private routines act on a private page.
-/

namespace PonyOS.Terminal

open PonyOS.Lib.Loop
open PonyOS.Lib.Word
open PonyOS.Paging

/-- One page of video memory. -/
abbrev Page := Fin 4096 → UInt8

namespace Page

/-- Overwrite one byte; an offset outside the page has no effect. -/
def set (page : Page) (offset : Nat) (byte : UInt8) : Page :=
  fun k => if k.val = offset then byte else page k

/-- Byte at an offset of the page. -/
def get (page : Page) (offset : Nat) : UInt8 :=
  if inside : offset < 4096 then page ⟨offset, inside⟩ else 0

/-- Put a character with the standard attribute into cell `cell`. -/
def putCell (page : Page) (cell : Nat) (c : UInt8) : Page :=
  (page.set (2 * cell) c).set (2 * cell + 1) attrib

/-- Move every row up by one and blank the last row. -/
def scrollUp (page : Page) : Page :=
  fun k =>
    if k.val < 4000 then
      if k.val % 2 = 1 then attrib
      else if k.val < 3840 then page.get (k.val + 160)
      else space
    else page k

/-- A page of blanks; the bytes after the last cell are kept. -/
def blank (page : Page) : Page :=
  fun k => if k.val < 4000 then (if k.val % 2 = 1 then attrib else space) else page k

end Page

/-- A private screen: a page and a cursor. -/
@[ext]
structure Screen where
  page : Page
  x : Int
  y : Int

namespace Screen

/-- Bring the cursor row back onto the screen. -/
def scroll (screen : Screen) : Screen :=
  if screen.y ≥ 25 then { page := screen.page.scrollUp, x := 0, y := 24 } else screen

/-- The one routine that puts a character. -/
def putChar (screen : Screen) (c : UInt8) : Screen :=
  if isNewline c then scroll { screen with x := 0, y := screen.y + 1 }
  else
    let scrolled := screen.scroll
    { page := scrolled.page.putCell (80 * scrolled.y + scrolled.x).toNat c
      x := if scrolled.x = 79 then 0 else scrolled.x + 1
      y := if scrolled.x = 79 then scrolled.y + 1 else scrolled.y }

/-- Blank the screen and move the cursor home. -/
def erase (screen : Screen) : Screen :=
  { page := screen.page.blank, x := 0, y := 0 }

/-- Step back over the last character and blank it. -/
def backspace (screen : Screen) : Screen :=
  let x := if screen.x = 0 then 79 else screen.x - 1
  let y := if screen.x = 0 then screen.y - 1 else screen.y
  { page := screen.page.putCell (80 * y + x).toNat space, x := x, y := y }

/-- Position of the cursor in cells. -/
def position (screen : Screen) : Int :=
  screen.y * 80 + screen.x

/-- The cursor is on the screen, or at the start of the row below it. -/
structure OnScreen (screen : Screen) : Prop where
  x_nonneg : 0 ≤ screen.x
  x_lt : screen.x < 80
  y_nonneg : 0 ≤ screen.y
  y_le : screen.y ≤ 25
  below : screen.y = 25 → screen.x = 0

/-- After scrolling, the cursor is on a cell of the screen, and scrolling
never moves it far up. -/
theorem OnScreen.scroll {screen : Screen} (on : screen.OnScreen) :
    screen.scroll.OnScreen ∧ screen.scroll.y < 25 ∧
      (screen.scroll.position = screen.position ∨ 1920 ≤ screen.scroll.position) := by
  unfold Screen.scroll
  by_cases below : screen.y ≥ 25
  · rw [if_pos below]
    exact ⟨⟨by simp, by simp, by simp, by simp, by simp⟩, by simp, .inr (by simp [position])⟩
  · rw [if_neg below]
    exact ⟨on, by omega, .inl rfl⟩

/-- Putting a character keeps the cursor on the screen. -/
theorem OnScreen.putChar {screen : Screen} (on : screen.OnScreen) (c : UInt8) :
    (screen.putChar c).OnScreen := by
  unfold Screen.putChar
  by_cases newline : isNewline c = true
  · rw [if_pos newline, Screen.scroll]
    have yNonneg := on.y_nonneg
    have yLe := on.y_le
    by_cases bottom : screen.y + 1 ≥ 25
    · rw [if_pos bottom]
      exact ⟨by simp, by simp, by simp, by simp, by simp⟩
    · rw [if_neg bottom]
      exact ⟨by simp, by simp, by simp only; omega, by simp only; omega, by simp⟩
  · rw [if_neg newline]
    obtain ⟨scrolledOn, rowLt, -⟩ := on.scroll
    have xNonneg := scrolledOn.x_nonneg
    have xLt := scrolledOn.x_lt
    have yNonneg := scrolledOn.y_nonneg
    by_cases lastColumn : screen.scroll.x = 79
    · simp only [if_pos lastColumn]
      exact ⟨by simp, by simp, by simp only; omega, by simp only; omega, by simp⟩
    · simp only [if_neg lastColumn]
      exact ⟨by simp only; omega, by simp only; omega, by simp only; omega,
        by simp only; omega, by simp only; omega⟩

/-- Putting a character moves the cursor forward by one cell at least, or
leaves it in the last rows. -/
theorem OnScreen.putChar_position {screen : Screen} (on : screen.OnScreen) (c : UInt8) :
    screen.position + 1 ≤ (screen.putChar c).position ∨
      1920 ≤ (screen.putChar c).position := by
  have xNonneg := on.x_nonneg
  have xLt := on.x_lt
  unfold Screen.putChar
  by_cases newline : isNewline c = true
  · rw [if_pos newline, Screen.scroll]
    by_cases bottom : screen.y + 1 ≥ 25
    · rw [if_pos bottom]
      exact .inr (by simp [position])
    · rw [if_neg bottom]
      exact .inl (by simp only [position]; omega)
  · rw [if_neg newline]
    obtain ⟨-, -, kept⟩ := on.scroll
    simp only [position] at kept ⊢
    split <;> omega

/-- Stepping back is safe whenever the cursor is past the first cell. -/
theorem OnScreen.backspace {screen : Screen} (on : screen.OnScreen)
    (positive : 0 < screen.position) :
    screen.backspace.OnScreen ∧ screen.backspace.y < 25 ∧
      screen.backspace.position = screen.position - 1 := by
  have xNonneg := on.x_nonneg
  have xLt := on.x_lt
  have yNonneg := on.y_nonneg
  have yLe := on.y_le
  have below := on.below
  simp only [position] at positive ⊢
  unfold Screen.backspace
  by_cases firstColumn : screen.x = 0
  · simp only [if_pos firstColumn]
    exact ⟨⟨by simp, by simp, by simp only; omega, by simp only; omega, by simp only; omega⟩,
      by omega, by omega⟩
  · simp only [if_neg firstColumn]
    exact ⟨⟨by simp only; omega, by simp only; omega, by simp only; omega, by simp only; omega,
      by simp only; omega⟩, by omega, by omega⟩

end Screen

end PonyOS.Terminal
