import PonyOS.Terminal.Screen

/-!
# Console routines act on one frame

A console routine draws through a virtual base address.  When the page tables
map the page at that address to a frame, the routine changes the bytes of that
frame and nothing else in memory, and it changes them as the private routines
do.  The lemmas carry a routine from the console to its page: first one store,
then the loops, then `putc_scroll` and its siblings.
-/

namespace PonyOS.Terminal

open PonyOS.Lib.Loop
open PonyOS.Lib.Word
open PonyOS.Paging

/-- Kernel accesses to the page at `base` reach `frame`. -/
structure MapsTo (paging : PageTables) (base frame : Nat) : Prop where
  fits : base + 4096 ≤ 4294967296
  translate : ∀ offset, offset < 4096 →
    paging.translate false (base + offset) = some (frame * 4096 + offset)

namespace Console

/-- The bytes of a frame. -/
def pageOf (console : Console) (frame : Nat) : Page :=
  fun k => console.memory (frame * 4096 + k.val)

/-- The console with the bytes of a frame replaced. -/
def withPage (console : Console) (frame : Nat) (page : Page) : Console :=
  { console with
    memory := fun address =>
      if address / 4096 = frame then page.get (address % 4096)
      else console.memory address }

theorem withPage_pageOf (console : Console) (frame : Nat) :
    console.withPage frame (console.pageOf frame) = console := by
  have memoryEq : (fun address =>
      if address / 4096 = frame then (console.pageOf frame).get (address % 4096)
      else console.memory address) = console.memory := by
    funext address
    have inPage : address % 4096 < 4096 := Nat.mod_lt _ (by decide)
    by_cases inFrame : address / 4096 = frame
    · have whole : frame * 4096 + address % 4096 = address := by omega
      rw [if_pos inFrame, Page.get, dif_pos inPage, pageOf, whole]
    · rw [if_neg inFrame]
  rw [withPage, memoryEq]

theorem pageOf_withPage_self (console : Console) (frame : Nat) (page : Page) :
    (console.withPage frame page).pageOf frame = page := by
  funext k
  have inPage := k.isLt
  have quotient : (frame * 4096 + k.val) / 4096 = frame := by omega
  have remainder : (frame * 4096 + k.val) % 4096 = k.val := by omega
  simp [pageOf, withPage, quotient, remainder, Page.get]

theorem pageOf_withPage_of_ne (console : Console) {frame other : Nat} (page : Page)
    (distinct : other ≠ frame) :
    (console.withPage frame page).pageOf other = console.pageOf other := by
  funext k
  have inPage := k.isLt
  have quotient : (other * 4096 + k.val) / 4096 = other := by omega
  simp [pageOf, withPage, quotient, distinct]

theorem store_withPage (console : Console) {base frame offset : Nat} (page : Page)
    (maps : MapsTo console.paging base frame) (inPage : offset < 4096) (byte : UInt8) :
    (console.withPage frame page).store (base + offset) byte =
      console.withPage frame (page.set offset byte) := by
  have translated : (console.withPage frame page).paging.translate false (base + offset) =
      some (frame * 4096 + offset) := maps.translate offset inPage
  rw [store, storeAs, translated]
  simp only [withPage, Console.mk.injEq, true_and, and_true]
  funext address
  have addressInPage : address % 4096 < 4096 := Nat.mod_lt _ (by decide)
  by_cases same : address = frame * 4096 + offset
  · subst same
    have quotient : (frame * 4096 + offset) / 4096 = frame := by omega
    have remainder : (frame * 4096 + offset) % 4096 = offset := by omega
    simp [quotient, remainder, Page.get, Page.set, inPage]
  · rw [Function.update_of_ne same]
    by_cases inFrame : address / 4096 = frame
    · have otherOffset : address % 4096 ≠ offset := by omega
      simp [inFrame, Page.get, Page.set, addressInPage, otherOffset]
    · rw [if_neg inFrame, if_neg inFrame]

theorem load_withPage (console : Console) {base frame offset : Nat} (page : Page)
    (maps : MapsTo console.paging base frame) (inPage : offset < 4096) :
    (console.withPage frame page).load (base + offset) = page.get offset := by
  have translated : (console.withPage frame page).paging.translate false (base + offset) =
      some (frame * 4096 + offset) := maps.translate offset inPage
  have quotient : (frame * 4096 + offset) / 4096 = frame := by omega
  have remainder : (frame * 4096 + offset) % 4096 = offset := by omega
  rw [load, translated]
  simp [withPage, quotient, remainder]

theorem load_withPage_of_ne (console : Console) {base frame other offset : Nat} (page : Page)
    (maps : MapsTo console.paging base other) (distinct : other ≠ frame)
    (inPage : offset < 4096) :
    (console.withPage frame page).load (base + offset) = (console.pageOf other).get offset := by
  have translated : (console.withPage frame page).paging.translate false (base + offset) =
      some (other * 4096 + offset) := maps.translate offset inPage
  have quotient : (other * 4096 + offset) / 4096 = other := by omega
  rw [load, translated]
  simp [withPage, quotient, distinct, Page.get, pageOf, inPage]

/-- Addresses of cells on the screen lie in the page at `base`. -/
theorem cellAddress_eq {base : Nat} {x y : Int} (fits : base + 4096 ≤ 4294967296)
    (nonneg : 0 ≤ 80 * y + x) (small : 80 * y + x < 2000) :
    cellAddress base x y = base + 2 * (80 * y + x).toNat := by
  unfold cellAddress uint32
  omega

theorem putCell_withPage (console : Console) {base frame : Nat} (page : Page) {x y : Int}
    (maps : MapsTo console.paging base frame)
    (nonneg : 0 ≤ 80 * y + x) (small : 80 * y + x < 2000) (c : UInt8) :
    (console.withPage frame page).putCell base x y c =
      console.withPage frame (page.putCell (80 * y + x).toNat c) := by
  rw [putCell, cellAddress_eq maps.fits nonneg small, store_withPage console page maps (by omega),
    Nat.add_assoc, store_withPage console _ maps (by omega)]
  rfl

end Console

/-! ## The scroll loops on one page -/

namespace Page

/-- The page after the first `n` cells have been taken from the row below. -/
def scrolledTo (page : Page) (n : Nat) : Page :=
  fun k =>
    if k.val < 2 * n then (if k.val % 2 = 1 then attrib else page.get (k.val + 160))
    else page k

/-- The page after the first `n` cells have been blanked. -/
def blankedFrom (page : Page) (first n : Nat) : Page :=
  fun k =>
    if 2 * first ≤ k.val ∧ k.val < 2 * (first + n) then
      (if k.val % 2 = 1 then attrib else space)
    else page k

theorem putCell_scrolledTo (page : Page) {n : Nat} (bound : n < 1920) :
    (page.scrolledTo n).putCell n ((page.scrolledTo n).get (2 * (n + 80))) =
      page.scrolledTo (n + 1) := by
  have source : (page.scrolledTo n).get (2 * (n + 80)) = page.get (2 * n + 160) := by
    have inside : 2 * (n + 80) < 4096 := by omega
    have later : ¬ 2 * (n + 80) < 2 * n := by omega
    rw [Page.get, dif_pos inside, scrolledTo, if_neg later, Page.get, dif_pos (by omega)]
    rfl
  rw [source]
  funext k
  simp only [putCell, set, scrolledTo]
  by_cases isAttribute : k.val = 2 * n + 1
  · rw [if_pos isAttribute, if_pos (by omega), if_pos (by omega)]
  · rw [if_neg isAttribute]
    by_cases isCharacter : k.val = 2 * n
    · rw [if_pos isCharacter, if_pos (by omega), if_neg (by omega), isCharacter]
    · rw [if_neg isCharacter]
      by_cases before : k.val < 2 * n
      · have within : k.val < 2 * (n + 1) := by omega
        rw [if_pos before, if_pos within]
      · rw [if_neg before, if_neg (by omega)]

theorem putCell_blankedFrom (page : Page) (first n : Nat) :
    (page.blankedFrom first n).putCell (first + n) space = page.blankedFrom first (n + 1) := by
  funext k
  simp only [putCell, set, blankedFrom]
  by_cases isAttribute : k.val = 2 * (first + n) + 1
  · rw [if_pos isAttribute, if_pos (by omega), if_pos (by omega)]
  · rw [if_neg isAttribute]
    by_cases isCharacter : k.val = 2 * (first + n)
    · rw [if_pos isCharacter, if_pos (by omega), if_neg (by omega)]
    · rw [if_neg isCharacter]
      by_cases before : 2 * first ≤ k.val ∧ k.val < 2 * (first + n)
      · have within : 2 * first ≤ k.val ∧ k.val < 2 * (first + (n + 1)) := by omega
        rw [if_pos before, if_pos within]
      · rw [if_neg before, if_neg (by omega)]

theorem scrolledTo_zero (page : Page) : page.scrolledTo 0 = page := by
  funext k
  simp [scrolledTo]

theorem blankedFrom_zero (page : Page) (first : Nat) : page.blankedFrom first 0 = page := by
  funext k
  rw [blankedFrom, if_neg (by omega)]

/-- The nested row and column loop, as a loop invariant over cells. -/
theorem scrollRows (page : Page) :
    forUpTo 24 (fun y page => forUpTo 80 (fun x page =>
      page.putCell (80 * y + x) (page.get (2 * (80 * (y + 1) + x)))) page) page =
        page.scrolledTo 1920 := by
  apply forUpTo_rule (fun y state => state = page.scrolledTo (80 * y)) 24
  · exact (scrolledTo_zero page).symm
  · rintro y _ rowBound rfl
    apply forUpTo_rule (fun x state => state = page.scrolledTo (80 * y + x)) 80
    · rfl
    · rintro x _ columnBound rfl
      have below : 80 * (y + 1) + x = 80 * y + x + 80 := by omega
      rw [below, putCell_scrolledTo page (by omega), Nat.add_assoc]

theorem blankLoop (page : Page) (first n : Nat) :
    forUpTo n (fun x page => page.putCell (first + x) space) page =
      page.blankedFrom first n := by
  apply forUpTo_rule (fun x state => state = page.blankedFrom first x) n
  · exact (blankedFrom_zero page first).symm
  · rintro x _ _ rfl
    exact putCell_blankedFrom page first x

theorem blankedFrom_scrolledTo (page : Page) :
    (page.scrolledTo 1920).blankedFrom 1920 80 = page.scrollUp := by
  funext k
  simp only [blankedFrom, scrolledTo, scrollUp]
  by_cases onScreen : k.val < 4000
  · rw [if_pos onScreen]
    by_cases moved : k.val < 3840
    · rw [if_neg (by omega), if_pos (by omega), if_pos moved]
    · rw [if_pos (by omega), if_neg moved]
  · rw [if_neg (by omega), if_neg (by omega), if_neg onScreen]

theorem blankedFrom_all (page : Page) : page.blankedFrom 0 2000 = page.blank := by
  funext k
  simp only [blankedFrom, blank]
  by_cases onScreen : k.val < 4000
  · rw [if_pos (by omega), if_pos onScreen]
  · rw [if_neg (by omega), if_neg onScreen]

end Page

namespace Console

/-- `shift_up` and `shift_up_display` scroll the frame they draw on. -/
theorem shiftUpAt_eq (console : Console) {base frame : Nat} (terminalId : Nat)
    (maps : MapsTo console.paging base frame) :
    console.shiftUpAt base terminalId =
      (console.withPage frame (console.pageOf frame).scrollUp).setCursor terminalId 0 24 := by
  have row : ∀ y page, y < 24 →
      forUpTo 80 (fun x state => state.putCell base (x : Nat) (y : Nat)
        (state.load (cellAddress base (x : Nat) (y + 1 : Nat)))) (console.withPage frame page) =
      console.withPage frame (forUpTo 80 (fun x page =>
        page.putCell (80 * y + x) (page.get (2 * (80 * (y + 1) + x)))) page) := by
    intro y page rowBound
    apply forUpTo_hom (console.withPage frame) 80
    intro x page columnBound
    have cell : ((80 : Int) * y + x).toNat = 80 * y + x := by omega
    have source : ((80 : Int) * (y + 1 : Nat) + x).toNat = 80 * (y + 1) + x := by omega
    rw [cellAddress_eq maps.fits (by omega) (by omega), source,
      load_withPage console page maps (by omega),
      putCell_withPage console page maps (by omega) (by omega), cell]
  have moved : forUpTo 24 (fun y state => forUpTo 80 (fun x state =>
      state.putCell base (x : Nat) (y : Nat)
        (state.load (cellAddress base (x : Nat) (y + 1 : Nat)))) state) console =
      console.withPage frame ((console.pageOf frame).scrolledTo 1920) := by
    have rows := forUpTo_hom (console.withPage frame) 24 row (console.pageOf frame)
    rw [withPage_pageOf, Page.scrollRows] at rows
    exact rows
  have blanked : ∀ page, forUpTo 80 (fun x state => state.putCell base (x : Nat) 24 space)
      (console.withPage frame page) =
      console.withPage frame (page.blankedFrom 1920 80) := by
    intro page
    rw [← Page.blankLoop]
    apply forUpTo_hom (console.withPage frame) 80
    intro x page columnBound
    have cell : ((80 : Int) * 24 + x).toNat = 1920 + x := by omega
    rw [putCell_withPage console page maps (by omega) (by omega), cell]
  simp only [shiftUpAt]
  rw [moved, blanked, Page.blankedFrom_scrolledTo]

/-! ## Routines as private-screen operations -/

/-- The screen of a terminal whose text is in a given frame. -/
def screenAt (console : Console) (frame terminalId : Nat) : Screen :=
  { page := console.pageOf frame
    x := console.screenX terminalId
    y := console.screenY terminalId }

/-- The console with the screen of a terminal replaced. -/
def drawn (console : Console) (frame terminalId : Nat) (screen : Screen) : Console :=
  (console.withPage frame screen.page).setCursor terminalId screen.x screen.y

@[simp]
theorem drawn_screenX (console : Console) (frame terminalId : Nat) (screen : Screen) :
    (console.drawn frame terminalId screen).screenX terminalId = screen.x := by
  simp [drawn, setCursor]

@[simp]
theorem drawn_screenY (console : Console) (frame terminalId : Nat) (screen : Screen) :
    (console.drawn frame terminalId screen).screenY terminalId = screen.y := by
  simp [drawn, setCursor]

theorem drawn_screenAt (console : Console) (frame terminalId : Nat) :
    console.drawn frame terminalId (console.screenAt frame terminalId) = console := by
  simp only [drawn, screenAt, withPage_pageOf, setCursor, Function.update_eq_self]

theorem screenAt_drawn_self (console : Console) (frame terminalId : Nat) (screen : Screen) :
    (console.drawn frame terminalId screen).screenAt frame terminalId = screen := by
  ext1
  · exact pageOf_withPage_self console frame screen.page
  · exact drawn_screenX console frame terminalId screen
  · exact drawn_screenY console frame terminalId screen

/-- Drawing on one terminal leaves the screens of the others alone. -/
theorem screenAt_drawn_of_ne (console : Console) {frame terminalId other otherFrame : Nat}
    (screen : Screen) (terminals : other ≠ terminalId) (frames : otherFrame ≠ frame) :
    (console.drawn frame terminalId screen).screenAt otherFrame other =
      console.screenAt otherFrame other := by
  ext1
  · exact pageOf_withPage_of_ne console screen.page frames
  · simp [screenAt, drawn, setCursor, terminals, withPage]
  · simp [screenAt, drawn, setCursor, terminals, withPage]

theorem withPage_withPage (console : Console) (frame : Nat) (first second : Page) :
    (console.withPage frame first).withPage frame second = console.withPage frame second := by
  simp only [withPage, Console.mk.injEq, true_and, and_true]
  funext address
  split <;> rfl

theorem drawn_drawn (console : Console) (frame terminalId : Nat) (first second : Screen) :
    (console.drawn frame terminalId first).drawn frame terminalId second =
      console.drawn frame terminalId second := by
  have pages := withPage_withPage console frame first.page second.page
  simp only [withPage, Console.mk.injEq, true_and, and_true] at pages
  simp only [drawn, setCursor, withPage, Function.update_idem, Console.mk.injEq, true_and,
    and_true]
  exact pages

/-- The loop `while (screen_y_multi[t] >= NUM_ROWS) shift_up();` leaves at once
or after one iteration, whatever the console. -/
theorem scrollLoop_stops (console : Console) (base terminalId : Nat) :
    StopsAfter (fun state : Console => decide (state.screenY terminalId ≥ 25))
      (fun state => state.shiftUpAt base terminalId) console
      (if console.screenY terminalId ≥ 25 then 1 else 0) := by
  by_cases below : console.screenY terminalId ≥ 25
  · rw [if_pos below]
    constructor
    · intro m inside
      have first : m = 0 := by omega
      subst first
      simpa using below
    · simp [shiftUpAt, setCursor]
  · rw [if_neg below]
    constructor
    · intro m inside
      exact absurd inside (Nat.not_lt_zero m)
    · simpa using below

/-- The scroll loop is skipped, or it is one `shift_up`. -/
theorem scrollAt_cases (console : Console) (base terminalId : Nat) :
    (console.screenY terminalId < 25 ∧ console.scrollAt base terminalId = console) ∨
      (console.screenY terminalId ≥ 25 ∧
        console.scrollAt base terminalId = console.shiftUpAt base terminalId) := by
  have stops := console.scrollLoop_stops base terminalId
  by_cases below : console.screenY terminalId ≥ 25
  · rw [if_pos below] at stops
    exact .inr ⟨below, stops.whileDo_eq (by decide)⟩
  · rw [if_neg below] at stops
    exact .inl ⟨Int.not_le.mp below, stops.whileDo_eq (by decide)⟩

/-- The scroll loop brings the row of the frame it draws on onto the screen. -/
theorem scrollAt_eq (console : Console) {base frame : Nat} (terminalId : Nat)
    (maps : MapsTo console.paging base frame) :
    console.scrollAt base terminalId =
      console.drawn frame terminalId (console.screenAt frame terminalId).scroll := by
  rcases console.scrollAt_cases base terminalId with ⟨above, skipped⟩ | ⟨below, once⟩
  · have kept : (console.screenAt frame terminalId).scroll =
        console.screenAt frame terminalId := if_neg (by simpa [screenAt] using above)
    rw [skipped, kept, drawn_screenAt]
  · have scrolled : (console.screenAt frame terminalId).scroll =
        { page := (console.pageOf frame).scrollUp, x := 0, y := 24 } := if_pos below
    rw [once, shiftUpAt_eq console terminalId maps, scrolled]
    rfl

/-- `putc_scroll` and `putc_scroll_display` put a character on the screen they
draw on. -/
theorem putcScrollAt_eq (console : Console) {base frame : Nat} (terminalId : Nat)
    (maps : MapsTo console.paging base frame)
    (on : (console.screenAt frame terminalId).OnScreen) (c : UInt8) :
    console.putcScrollAt base terminalId c =
      console.drawn frame terminalId ((console.screenAt frame terminalId).putChar c) := by
  unfold putcScrollAt Screen.putChar
  by_cases newline : isNewline c = true
  · rw [if_pos newline, if_pos newline]
    generalize nextLine : ({ console.screenAt frame terminalId with
      x := 0, y := (console.screenAt frame terminalId).y + 1 } : Screen) = next
    have moved : console.setCursor terminalId 0 (console.screenY terminalId + 1) =
        console.drawn frame terminalId next := by
      subst nextLine
      simp only [drawn, screenAt, withPage_pageOf]
    have movedMaps : MapsTo (console.drawn frame terminalId next).paging base frame := maps
    rw [moved, scrollAt_eq _ terminalId movedMaps, screenAt_drawn_self, drawn_drawn]
  · rw [if_neg newline, if_neg newline, scrollAt_eq console terminalId maps]
    obtain ⟨scrolledOn, rowLt, -⟩ := on.scroll
    generalize (console.screenAt frame terminalId).scroll = scrolled at scrolledOn rowLt
    have xNonneg := scrolledOn.x_nonneg
    have xLt := scrolledOn.x_lt
    have yNonneg := scrolledOn.y_nonneg
    have column : (scrolled.x + 1).tmod 80 = if scrolled.x = 79 then 0 else scrolled.x + 1 := by
      rw [Int.tmod_eq_emod_of_nonneg (by omega)]
      split <;> omega
    have row : scrolled.y + (scrolled.x + 1).tdiv 80 =
        if scrolled.x = 79 then scrolled.y + 1 else scrolled.y := by
      rw [Int.tdiv_eq_ediv_of_nonneg (by omega)]
      split <;> omega
    simp only [drawn_screenX, drawn_screenY, column, row]
    have cell := putCell_withPage (console.setCursor terminalId scrolled.x scrolled.y)
      scrolled.page (x := scrolled.x) (y := scrolled.y) maps (by omega) (by omega) c
    have cursorFirst : console.drawn frame terminalId scrolled =
        (console.setCursor terminalId scrolled.x scrolled.y).withPage frame scrolled.page := rfl
    rw [cursorFirst, cell]
    simp only [drawn, setCursor, withPage, Function.update_idem]

theorem memcpy_eq (console : Console) {dest src frame other : Nat}
    (destMaps : MapsTo console.paging dest frame) (srcMaps : MapsTo console.paging src other)
    (distinct : other ≠ frame) :
    console.memcpy dest src 0x1000 = console.withPage frame (console.pageOf other) := by
  have copied : forUpTo 4096 (fun i page => Page.set page i ((console.pageOf other).get i))
      (console.pageOf frame) = fun k => if k.val < 4096 then console.pageOf other k
        else console.pageOf frame k := by
    apply forUpTo_rule (fun n page => page = fun k => if k.val < n then console.pageOf other k
      else console.pageOf frame k) 4096
    · funext k
      simp
    · rintro i _ bound rfl
      funext k
      simp only [Page.set]
      by_cases here : k.val = i
      · rw [if_pos here, if_pos (by omega), Page.get, dif_pos bound]
        congr 1
        exact Fin.ext here.symm
      · rw [if_neg here]
        by_cases before : k.val < i
        · rw [if_pos before, if_pos (by omega)]
        · rw [if_neg before, if_neg (by omega)]
  have whole : forUpTo 4096 (fun i state => store state (dest + i) (load state (src + i)))
      (console.withPage frame (console.pageOf frame)) =
      console.withPage frame (forUpTo 4096
        (fun i page => Page.set page i ((console.pageOf other).get i)) (console.pageOf frame)) := by
    apply forUpTo_hom (console.withPage frame) 4096
    intro i page bound
    rw [load_withPage_of_ne console page srcMaps distinct bound,
      store_withPage console page destMaps bound]
  rw [withPage_pageOf, copied] at whole
  simp only [Fin.is_lt, if_true] at whole
  exact whole

/-- `clear` blanks the screen it draws on. -/
theorem clear_eq (console : Console) {frame : Nat}
    (maps : MapsTo console.paging physicalVideoMem frame) :
    console.clear =
      (console.drawn frame console.displayTerminal
        (console.screenAt frame console.displayTerminal).erase).updateCursor 0 0 := by
  have mapsHome : MapsTo (console.setCursor console.displayTerminal 0 0).paging
      physicalVideoMem frame := maps
  have loop : forUpTo 2000 (fun i state =>
      store (store state (physicalVideoMem + 2 * i) space) (physicalVideoMem + 2 * i + 1) attrib)
      ((console.setCursor console.displayTerminal 0 0).withPage frame
        ((console.setCursor console.displayTerminal 0 0).pageOf frame)) =
      (console.setCursor console.displayTerminal 0 0).withPage frame
        (forUpTo 2000 (fun i page => Page.putCell page (0 + i) space)
          ((console.setCursor console.displayTerminal 0 0).pageOf frame)) := by
    apply forUpTo_hom
    intro i page bound
    rw [store_withPage _ page mapsHome (by omega), Nat.add_assoc,
      store_withPage _ _ mapsHome (by omega), Nat.zero_add]
    rfl
  rw [withPage_pageOf, Page.blankLoop, Page.blankedFrom_all] at loop
  simp only [clear]
  rw [loop]
  rfl

/-- `erase_last_ch_display` steps back on the screen it draws on. -/
theorem eraseLastChDisplay_eq (console : Console) {frame : Nat}
    (maps : MapsTo console.paging physicalVideoMem frame)
    (on : (console.screenAt frame console.displayTerminal).OnScreen)
    (positive : 0 < (console.screenAt frame console.displayTerminal).position) :
    let erased := (console.screenAt frame console.displayTerminal).backspace
    console.eraseLastChDisplay =
      (console.drawn frame console.displayTerminal erased).updateCursor erased.x erased.y := by
  intro erased
  obtain ⟨erasedOn, rowLt, -⟩ : erased.OnScreen ∧ erased.y < 25 ∧ _ := on.backspace positive
  have xNonneg := erasedOn.x_nonneg
  have yNonneg := erasedOn.y_nonneg
  have xLt := erasedOn.x_lt
  have moved : (if console.screenX console.displayTerminal = 0 then
      console.setCursor console.displayTerminal 79
        (console.screenY console.displayTerminal - 1)
      else console.setCursor console.displayTerminal
        (console.screenX console.displayTerminal - 1)
        (console.screenY console.displayTerminal)) =
      console.setCursor console.displayTerminal erased.x erased.y := by
    by_cases firstColumn : console.screenX console.displayTerminal = 0
    · simp [erased, Screen.backspace, screenAt, firstColumn]
    · simp [erased, Screen.backspace, screenAt, firstColumn]
  have cell := putCell_withPage (console.setCursor console.displayTerminal erased.x erased.y)
    (console.pageOf frame) (x := erased.x) (y := erased.y) maps (by omega) (by omega) space
  have pageEq : (console.setCursor console.displayTerminal erased.x erased.y).withPage frame
      (console.pageOf frame) =
      console.setCursor console.displayTerminal erased.x erased.y :=
    withPage_pageOf (console.setCursor console.displayTerminal erased.x erased.y) frame
  rw [pageEq] at cell
  simp only [eraseLastChDisplay, moved]
  simp only [setCursor, Function.update_self] at cell ⊢
  rw [cell]
  rfl

end Console

end PonyOS.Terminal
