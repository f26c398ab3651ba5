import Mathlib.Data.List.GetD
import PonyOS.Terminal.Frame
import PonyOS.Terminal.Switching

/-!
# The line editor

What the keyboard driver keeps for a terminal, a buffer of `129` bytes and an
index, stands for the line that is being typed there.  The editor has that line
as a list, with the keys that are held, Caps Lock and the displayed terminal
beside it, and says what each key does to it.  The driver refines the editor:
after any keys and display switches the buffer is the list followed by zeros,
and the row of a submitted line is that line followed by zeros.
-/

namespace PonyOS.Terminal

open PonyOS.Lib.Word
open PonyOS.Paging

universe u

/-! ## Lines -/

/-- A line that fits the buffer. -/
structure Line where
  text : List UInt8
  short : text.length ≤ 128

namespace Line

/-- The empty line. -/
def empty : Line :=
  { text := [], short := Nat.zero_le 128 }

/-- A character at the end, unless the line is full. -/
def append (line : Line) (c : UInt8) : Line :=
  if room : line.text.length < 128 then
    { text := line.text ++ [c]
      short := by
        rw [List.length_append]
        exact room }
  else line

/-- The line without its last character. -/
def dropLast (line : Line) : Line :=
  { text := line.text.dropLast
    short := by
      rw [List.length_dropLast]
      exact Nat.le_trans (Nat.sub_le _ _) line.short }

@[simp]
theorem dropLast_of_nil {line : Line} (nothing : line.text = []) : line.dropLast = line := by
  rcases line with ⟨text, short⟩
  subst nothing
  rfl

theorem append_of_lt {line : Line} (room : line.text.length < 128) (c : UInt8) :
    (line.append c).text = line.text ++ [c] := by
  rw [append, dif_pos room]

theorem append_of_full {line : Line} (full : ¬ line.text.length < 128) (c : UInt8) :
    line.append c = line := by
  rw [append, dif_neg full]

end Line

/-! ## The editor -/

/-- The character of a key: Caps Lock converts letters, Shift everything. -/
def keyCharacter (caps shift : Bool) (c : Nat) : UInt8 :=
  let res := scancodesMap c
  let res := if caps ∧ 97 ≤ res ∧ res ≤ 122 then specialConvertMap res else res
  if shift then specialConvertMap res else res

/-- The keys held, Caps Lock, the displayed terminal, the line of every terminal,
and the line last handed over on it. -/
structure LineEditor where
  held : Nat → Bool
  caps : Bool
  display : Nat
  line : Nat → Line
  submitted : Nat → Option Line

namespace LineEditor

/-- No key is held, and nothing was typed. -/
def initial : LineEditor :=
  { held := fun _ => false
    caps := false
    display := 0
    line := fun _ => .empty
    submitted := fun _ => none }

/-- The line of the displayed terminal. -/
def current (editor : LineEditor) : Line :=
  editor.line editor.display

/-- Replace the line of the displayed terminal. -/
def setCurrent (editor : LineEditor) (line : Line) : LineEditor :=
  { editor with line := Function.update editor.line editor.display line }

@[simp]
theorem setCurrent_current (editor : LineEditor) : editor.setCurrent editor.current = editor := by
  simp [setCurrent, current]

@[simp]
theorem current_setCurrent (editor : LineEditor) (line : Line) :
    (editor.setCurrent line).current = line := by
  simp [setCurrent, current]

/-- Shift is held. -/
def shift (editor : LineEditor) : Bool :=
  editor.held scancodeLeftShift || editor.held scancodeRightShift

/-- The character of a key as things stand. -/
def character (editor : LineEditor) (c : Nat) : UInt8 :=
  keyCharacter editor.caps editor.shift c

/-- A key goes down. -/
def hold (editor : LineEditor) (c : Nat) : LineEditor :=
  { editor with
    held := Function.update editor.held c true
    caps := if c = scancodeCapsLock then !editor.caps else editor.caps }

/-- A key goes up. -/
def release (editor : LineEditor) (c : Nat) : LineEditor :=
  { editor with held := Function.update editor.held c false }

/-- The three display switches. -/
def switchDisplay (editor : LineEditor) (c : Nat) : LineEditor :=
  if c = scancodeF1 then { editor with display := 0 }
  else if c = scancodeF2 then { editor with display := 1 }
  else if c = scancodeF3 then { editor with display := 2 }
  else editor

/-- What a key that has gone down types: Ctrl+L empties the line, Alt makes it a
switch, and otherwise a mapped key appends its character. -/
def type (editor : LineEditor) (c : Nat) : LineEditor :=
  if c = scancodeL ∧ editor.held scancodeLeftControl = true then editor.setCurrent .empty
  else if editor.held scancodeLeftAlt = true then editor.switchDisplay c
  else if scancodesMap c ≠ 0 then
    editor.setCurrent (editor.current.append (editor.character c))
  else editor

/-- Hand the line over and start a new one. -/
def submit (editor : LineEditor) : LineEditor :=
  { editor.setCurrent .empty with
    submitted := Function.update editor.submitted editor.display (some editor.current) }

/-- One scancode byte. -/
def key (editor : LineEditor) (c : Nat) : LineEditor :=
  if c > 127 then editor.release (c - 128)
  else
    let typed := (editor.hold c).type c
    if c = scancodeEnter then typed.submit
    else if c = scancodeBackspace then typed.setCurrent typed.current.dropLast
    else typed

/-- One event of the terminals: keys and display switches. -/
def step (editor : LineEditor) : Event → LineEditor
  | .key _ c => editor.key c.toNat
  | .setDisiplayTerminal terminalId => { editor with display := terminalId }
  | _ => editor

/-! Only the line of the displayed terminal is edited. -/

section Elsewhere

variable {editor : LineEditor} {t : Nat}

theorem setCurrent_elsewhere (elsewhere : t ≠ editor.display) (line : Line) :
    (editor.setCurrent line).line t = editor.line t := by
  simp only [setCurrent, Function.update_of_ne elsewhere]

theorem switchDisplay_line (editor : LineEditor) (c : Nat) :
    (editor.switchDisplay c).line = editor.line := by
  unfold switchDisplay
  split_ifs <;> rfl

theorem type_elsewhere (elsewhere : t ≠ editor.display) (c : Nat) :
    (editor.type c).line t = editor.line t := by
  unfold type
  split_ifs
  · exact setCurrent_elsewhere elsewhere .empty
  · rw [switchDisplay_line]
  · exact setCurrent_elsewhere elsewhere _
  · rfl

/-- Only a function key with Alt changes the display, and it is neither Enter nor
Backspace. -/
theorem type_display (editor : LineEditor) {c : Nat}
    (edits : c = scancodeEnter ∨ c = scancodeBackspace) :
    (editor.type c).display = editor.display := by
  unfold type switchDisplay
  rcases edits with rfl | rfl
  all_goals
    split_ifs <;> first | rfl | contradiction

theorem key_elsewhere (elsewhere : t ≠ editor.display) (c : Nat) :
    (editor.key c).line t = editor.line t := by
  have notHere : t ≠ (editor.hold c).display := elsewhere
  have typed : ((editor.hold c).type c).line t = editor.line t := type_elsewhere notHere c
  unfold key
  by_cases released : c > 127
  · rw [if_pos released]
    rfl
  rw [if_neg released]
  by_cases enter : c = scancodeEnter
  · have shown := (editor.hold c).type_display (Or.inl enter)
    simp only [if_pos enter, submit]
    rw [setCurrent_elsewhere (shown ▸ elsewhere), typed]
  · by_cases backspace : c = scancodeBackspace
    · have shown := (editor.hold c).type_display (Or.inr backspace)
      simp only [if_neg enter, if_pos backspace]
      rw [setCurrent_elsewhere (shown ▸ elsewhere), typed]
    · simp only [if_neg enter, if_neg backspace]
      exact typed

theorem step_elsewhere (elsewhere : t ≠ editor.display) (event : Event) :
    (editor.step event).line t = editor.line t := by
  cases event with
  | key pidFree c => exact key_elsewhere elsewhere c.toNat
  | _ => rfl

end Elsewhere

end LineEditor

/-! ## Representation -/

/-- The driver and the displayed terminal stand for an editor. -/
structure Represents (display : Nat) (keyboard : Keyboard) (editor : LineEditor) : Prop where
  held : keyboard.pressedKey = editor.held
  caps : keyboard.capStatus = editor.caps
  display : display = editor.display
  cursor : ∀ t, keyboard.cursorInd t = (editor.line t).text.length
  buffer : ∀ t k, k ≤ 128 → keyboard.keyboardBuffer t k = (editor.line t).text.getD k 0
  handed : ∀ t line, editor.submitted t = some line → keyboard.terminalReadReady t = true ∧
    ∀ k, k < printLim → keyboard.printBuffer (printRow t + k) = line.text.getD k 0
  waiting : ∀ t, editor.submitted t = none → keyboard.terminalReadReady t = false

/-- The screen routines and the displayed terminal: one routine sets it, and the
others leave it alone. -/
structure DisplayLaws {σ : Type u} (ops : ScreenOps σ) : Prop where
  clear : ∀ screen, ops.displayTerminal (ops.clear screen) = ops.displayTerminal screen
  echo : ∀ screen c,
    ops.displayTerminal (ops.putcScrollDisplay screen c) = ops.displayTerminal screen
  erase : ∀ screen,
    ops.displayTerminal (ops.eraseLastChDisplay screen) = ops.displayTerminal screen
  shown : ∀ screen terminalId,
    ops.displayTerminal (ops.setDisiplayTerminal screen terminalId) = terminalId

theorem displayTerminal_of_control {console : Console} {control : Control}
    (same : console.control = control) :
    consoleOps.displayTerminal console = control.displayTerminal :=
  congrArg Control.displayTerminal same

theorem consoleOps_displayLaws : DisplayLaws consoleOps := by
  constructor
  · intro console
    exact displayTerminal_of_control console.clear_control
  · intro console c
    exact displayTerminal_of_control (console.putcScrollDisplay_control c)
  · intro console
    exact displayTerminal_of_control console.eraseLastChDisplay_control
  · intro console terminalId
    exact displayTerminal_of_control (console.setDisiplayTerminal_control terminalId)

/-! ## Refinement -/

namespace Represents

variable {display : Nat} {keyboard : Keyboard} {editor : LineEditor}

theorem hold (represents : Represents display keyboard editor) (c : Nat) :
    Represents display (pressKey keyboard c) (editor.hold c) := by
  obtain ⟨held, caps, shown, cursor, buffer, handed, waiting⟩ := represents
  refine ⟨?_, ?_, shown, cursor, buffer, handed, waiting⟩
  · exact congrArg (Function.update · c true) held
  · simp only [pressKey, LineEditor.hold, caps]

theorem release (represents : Represents display keyboard editor) (c : Nat) :
    Represents display (releaseKey keyboard c) (editor.release (c - 128)) := by
  obtain ⟨held, caps, shown, cursor, buffer, handed, waiting⟩ := represents
  refine ⟨?_, caps, shown, cursor, buffer, handed, waiting⟩
  simp only [releaseKey, LineEditor.release, held]

theorem characterConvert_eq (represents : Represents display keyboard editor) {c : Nat}
    (mapped : scancodesMap c ≠ 0) : keyboard.characterConvert c = editor.character c := by
  rw [Keyboard.characterConvert, if_neg mapped, represents.held, represents.caps]
  simp only [LineEditor.character, keyCharacter, LineEditor.shift, Bool.or_eq_true]

theorem edit (represents : Represents display keyboard editor) {next : Keyboard} (line : Line)
    (row : Nat → UInt8)
    (nextEq : next = { keyboard with
      keyboardBuffer := Function.update keyboard.keyboardBuffer display row
      cursorInd := Function.update keyboard.cursorInd display line.text.length })
    (holds : ∀ k, k ≤ 128 → row k = line.text.getD k 0) :
    Represents display next (editor.setCurrent line) := by
  obtain ⟨held, caps, shown, cursor, buffer, handed, waiting⟩ := represents
  subst nextEq shown
  refine ⟨held, caps, rfl, ?_, ?_, handed, waiting⟩
  · intro t
    by_cases here : t = editor.display
    · simp [LineEditor.setCurrent, here]
    · simp [LineEditor.setCurrent, here, cursor t]
  · intro t k inside
    by_cases here : t = editor.display
    · simp [LineEditor.setCurrent, here, holds k inside]
    · simp [LineEditor.setCurrent, here, buffer t k inside]

theorem clearLine (represents : Represents display keyboard editor) :
    Represents display (keyboard.clearLine display) (editor.setCurrent .empty) := by
  apply represents.edit .empty (fun _ => 0) rfl
  intro k _
  simp [Line.empty]

theorem appendChar (represents : Represents display keyboard editor) (c : UInt8)
    (room : keyboard.cursorInd display < 128) :
    Represents display (keyboard.appendChar display c)
      (editor.setCurrent (editor.current.append c)) := by
  have shown := represents.display
  subst shown
  have length : keyboard.cursorInd editor.display = editor.current.text.length :=
    represents.cursor editor.display
  have text := Line.append_of_lt (length ▸ room) c
  apply represents.edit _ (Function.update (keyboard.keyboardBuffer editor.display)
    (keyboard.cursorInd editor.display) c)
  · rw [text, List.length_append, List.length_singleton, ← length]
    rfl
  · intro k inside
    have typed : keyboard.keyboardBuffer editor.display k = editor.current.text.getD k 0 :=
      represents.buffer editor.display k inside
    rw [text, length]
    rcases Nat.lt_trichotomy k editor.current.text.length with before | here | behind
    · rw [Function.update_of_ne (Nat.ne_of_lt before), typed, List.getD_append _ _ _ _ before]
    · rw [here, Function.update_self]
      simp
    · rw [Function.update_of_ne (Nat.ne_of_gt behind), typed,
        List.getD_eq_default _ _ (Nat.le_of_lt behind), List.getD_eq_default]
      rw [List.length_append, List.length_singleton]
      exact behind

theorem dropChar (represents : Represents display keyboard editor) :
    Represents display (keyboard.dropChar display)
      (editor.setCurrent editor.current.dropLast) := by
  have shown := represents.display
  subst shown
  have length : keyboard.cursorInd editor.display = editor.current.text.length :=
    represents.cursor editor.display
  apply represents.edit _ (Function.update (keyboard.keyboardBuffer editor.display)
    (keyboard.cursorInd editor.display - 1) 0)
  · rw [Line.dropLast, List.length_dropLast, ← length]
    rfl
  · intro k inside
    have typed : keyboard.keyboardBuffer editor.display k = editor.current.text.getD k 0 :=
      represents.buffer editor.display k inside
    rw [length, Line.dropLast]
    rcases Nat.lt_trichotomy k (editor.current.text.length - 1) with kept | here | behind
    · rw [Function.update_of_ne (Nat.ne_of_lt kept), typed, List.getD_eq_getElem?_getD,
        List.getD_eq_getElem?_getD, List.getElem?_dropLast, if_pos kept]
    · rw [here, Function.update_self, List.getD_eq_default]
      rw [List.length_dropLast]
    · rw [Function.update_of_ne (Nat.ne_of_gt behind), typed, List.getD_eq_default,
        List.getD_eq_default]
      · rw [List.length_dropLast]
        exact Nat.le_of_lt behind
      · omega

theorem submitLine (represents : Represents display keyboard editor) :
    Represents display (keyboard.submitLine display) editor.submit := by
  have shown := represents.display
  subst shown
  have cleared := represents.clearLine
  refine ⟨cleared.held, cleared.caps, cleared.display, cleared.cursor, cleared.buffer, ?_, ?_⟩
  · intro t line isSubmitted
    by_cases here : t = editor.display
    · subst here
      simp only [LineEditor.submit, Function.update_self, Option.some.injEq] at isSubmitted
      subst isSubmitted
      refine ⟨Function.update_self .., ?_⟩
      intro k inRow
      simp only [Keyboard.submitLine, Keyboard.submittedBuffer]
      rw [if_pos (by omega)]
      by_cases inLine : k < 129
      · rw [if_pos (by omega), Nat.add_sub_cancel_left]
        exact represents.buffer editor.display k (Nat.le_of_lt_succ inLine)
      · have short := editor.current.short
        rw [if_neg (by omega), List.getD_eq_default _ _ (by omega)]
    · simp only [LineEditor.submit, Function.update_of_ne here] at isSubmitted
      obtain ⟨raised, row⟩ := represents.handed t line isSubmitted
      simp only [Keyboard.submitLine, Keyboard.submittedBuffer, Function.update_of_ne here]
      refine ⟨raised, ?_⟩
      intro k inRow
      rw [if_neg, row k inRow]
      unfold printRow printLim at *
      omega
  · intro t notSubmitted
    by_cases here : t = editor.display
    · simp [LineEditor.submit, here] at notSubmitted
    · simp only [LineEditor.submit, Function.update_of_ne here] at notSubmitted
      simp only [Keyboard.submitLine, Function.update_of_ne here]
      exact represents.waiting t notSubmitted

theorem shown (represents : Represents display keyboard editor) (terminalId : Nat)
    {next : Keyboard} (second third : Bool)
    (nextEq : next = { keyboard with terminal2Running := second, terminal3Running := third }) :
    Represents terminalId next { editor with display := terminalId } := by
  obtain ⟨held, caps, -, cursor, buffer, handed, waiting⟩ := represents
  subst nextEq
  exact ⟨held, caps, rfl, cursor, buffer, handed, waiting⟩

end Represents

section Handler

variable {σ : Type u} {ops : ScreenOps σ} {screen : σ} {keyboard : Keyboard} {editor : LineEditor}

theorem altKey_represents (laws : DisplayLaws ops)
    (represents : Represents (ops.displayTerminal screen) keyboard editor) (pidFree : Bool)
    (c : Nat) :
    let result := altKey ops pidFree screen keyboard c
    Represents (ops.displayTerminal result.screen) result.keyboard (editor.switchDisplay c) := by
  simp only [altKey, LineEditor.switchDisplay]
  by_cases first : c = scancodeF1
  · simp only [if_pos first, laws.shown]
    exact represents.shown 0 _ _ rfl
  simp only [if_neg first]
  by_cases second : c = scancodeF2
  · simp only [if_pos second]
    split
    · rw [laws.shown]
      exact represents.shown 1 _ _ rfl
    · rw [laws.shown]
      exact represents.shown 1 _ _ rfl
  simp only [if_neg second]
  by_cases third : c = scancodeF3
  · simp only [if_pos third]
    split
    · rw [laws.shown]
      exact represents.shown 2 _ _ rfl
    · rw [laws.shown]
      exact represents.shown 2 _ _ rfl
  · simp only [if_neg third]
    exact represents

/-- A key that goes down types what the editor types. -/
theorem makeBreak_represents (laws : DisplayLaws ops)
    (represents : Represents (ops.displayTerminal screen) keyboard editor) (pidFree : Bool)
    {c : Nat} (pressed : ¬ c > 127) :
    let result := makeBreak ops pidFree screen keyboard c
    Represents (ops.displayTerminal result.screen) result.keyboard ((editor.hold c).type c) := by
  have holding := represents.hold c
  have held := holding.held
  simp only [makeBreak, if_neg pressed, LineEditor.type, held]
  by_cases clears : c = scancodeL ∧ (editor.hold c).held scancodeLeftControl = true
  · simp only [if_pos clears, laws.clear]
    exact holding.clearLine
  simp only [if_neg clears]
  by_cases alt : (editor.hold c).held scancodeLeftAlt = true
  · simp only [if_pos alt]
    exact altKey_represents laws holding pidFree c
  simp only [if_neg alt]
  by_cases mapped : scancodesMap c ≠ 0
  · rw [if_pos mapped]
    by_cases room : (pressKey keyboard c).cursorInd (ops.displayTerminal screen) < 128
    · simp only [if_pos (And.intro mapped room), laws.echo, holding.characterConvert_eq mapped]
      exact holding.appendChar _ room
    · have full : ¬ (editor.hold c).current.text.length < 128 := by
        rw [holding.cursor, holding.display] at room
        exact room
      rw [if_neg fun both => room both.2, Line.append_of_full full,
        LineEditor.setCurrent_current]
      exact holding
  · rw [if_neg mapped, if_neg fun both => mapped both.1]
    exact holding

/-- `scancode_processing` is a key of the editor. -/
theorem scancodeProcessing_represents (laws : DisplayLaws ops)
    (represents : Represents (ops.displayTerminal screen) keyboard editor) (pidFree : Bool)
    (c : UInt8) :
    let result := scancodeProcessing ops pidFree screen keyboard c
    Represents (ops.displayTerminal result.screen) result.keyboard (editor.key c.toNat) := by
  simp only [scancodeProcessing, LineEditor.key]
  generalize c.toNat = code
  by_cases released : code > 127
  · have notEnter : code ≠ scancodeEnter := by
      unfold scancodeEnter
      omega
    have notBackspace : code ≠ scancodeBackspace := by
      unfold scancodeBackspace
      omega
    rw [if_pos released, enterKey, if_neg notEnter, backspaceKey]
    simp only [notBackspace, false_and, if_false, makeBreak, if_pos released]
    exact represents.release code
  · have typed := makeBreak_represents laws represents pidFree released
    rw [if_neg released]
    generalize makeBreak ops pidFree screen keyboard code = result at typed ⊢
    generalize (editor.hold code).type code = after at typed ⊢
    by_cases enter : code = scancodeEnter
    · have notBackspace : code ≠ scancodeBackspace := by
        rw [enter]
        decide
      simp only [enterKey, if_pos enter, backspaceKey, notBackspace, false_and, if_false]
      exact typed.submitLine
    · simp only [enterKey, if_neg enter, backspaceKey]
      by_cases backspace : code = scancodeBackspace
      · by_cases nothing : result.keyboard.cursorInd (ops.displayTerminal result.screen) = 0
        · have empty : after.current.text = [] := by
            rw [typed.cursor, typed.display] at nothing
            exact List.eq_nil_of_length_eq_zero nothing
          rw [if_neg fun both => both.2 nothing, if_pos backspace, Line.dropLast_of_nil empty,
            LineEditor.setCurrent_current]
          exact typed
        · simp only [if_pos (And.intro backspace nothing), if_pos backspace, laws.erase]
          exact typed.dropChar
      · simp only [backspace, false_and, if_false]
        exact typed

end Handler

/-! ## Whole runs -/

namespace Terminals

/-- The driver and its screen stand for an editor. -/
def RepresentsLines (terminals : Terminals) (editor : LineEditor) : Prop :=
  Represents (consoleOps.displayTerminal terminals.console) terminals.keyboard editor

theorem RepresentsLines.redraw {terminals : Terminals} {editor : LineEditor}
    (represents : terminals.RepresentsLines editor) {console : Console}
    (same : console.control.displayTerminal = terminals.console.control.displayTerminal) :
    RepresentsLines { terminals with console := console } editor := by
  unfold RepresentsLines at represents ⊢
  have shown : consoleOps.displayTerminal console =
      consoleOps.displayTerminal terminals.console := same
  rw [shown]
  exact represents

theorem RepresentsLines.switch {terminals : Terminals} {editor : LineEditor}
    (represents : terminals.RepresentsLines editor) {console : Console} {terminalId : Nat}
    (shown : console.control.displayTerminal = terminalId) :
    RepresentsLines { terminals with console := console }
      { editor with display := terminalId } := by
  subst shown
  exact represents.shown _ terminals.keyboard.terminal2Running
    terminals.keyboard.terminal3Running rfl

/-- Every event of the terminals is one of the editor. -/
theorem RepresentsLines.step {terminals : Terminals} {editor : LineEditor}
    (represents : terminals.RepresentsLines editor) (event : Event) :
    (terminals.step event).RepresentsLines (editor.step event) := by
  cases event with
  | putcScroll c =>
      exact represents.redraw (by rw [Console.putcScroll_control])
  | putsScroll s len =>
      exact represents.redraw (by rw [Console.putsScroll_control])
  | vidmapStore offset byte =>
      exact represents.redraw (by rw [Console.vidmapStore, Console.storeAs_control])
  | key pidFree c => exact scancodeProcessing_represents consoleOps_displayLaws represents pidFree c
  | setActiveTerminal terminalId => exact represents.redraw rfl
  | setDisiplayTerminal terminalId =>
      exact represents.switch (by rw [Console.setDisiplayTerminal_control])

theorem boot_representsLines (paging : PageTables) (memory : Memory) (printBuffer : Nat → UInt8) :
    (boot paging memory printBuffer).RepresentsLines .initial := by
  have shown : consoleOps.displayTerminal (boot paging memory printBuffer).console = 0 :=
    displayTerminal_of_control (Console.clear_control _)
  unfold RepresentsLines
  rw [shown]
  refine ⟨rfl, rfl, rfl, fun _ => rfl, ?_, ?_, fun _ _ => rfl⟩
  · intro t k _
    simp [boot, Keyboard.keyboardInit, LineEditor.initial, Line.empty]
  · rintro t line ⟨⟩

/-- Every run is one of the editor. -/
theorem run_representsLines (paging : PageTables) (memory : Memory) (printBuffer : Nat → UInt8)
    (events : List Event) :
    (events.foldl Terminals.step (boot paging memory printBuffer)).RepresentsLines
      (events.foldl LineEditor.step .initial) :=
  List.foldl_rel (boot_representsLines paging memory printBuffer)
    fun event _ _ _ represents => represents.step event

end Terminals

/-- The driver refines a list per terminal.  After any scancodes, with display
switches and output in between, its buffers and indices, the rows and the flags
stand for the editor that takes the same events; what it would append for a
mapped key is the character of the editor, and no event changes the line of a
terminal that is not displayed. -/
theorem lineEditor_refines (paging : PageTables) (memory : Memory) (printBuffer : Nat → UInt8)
    (events : List Event) :
    let terminals := events.foldl Terminals.step (Terminals.boot paging memory printBuffer)
    let editor := events.foldl LineEditor.step .initial
    terminals.RepresentsLines editor ∧
      (∀ c, scancodesMap c ≠ 0 →
        (pressKey terminals.keyboard c).characterConvert c = (editor.hold c).character c) ∧
      ∀ event t, t ≠ editor.display → (editor.step event).line t = editor.line t := by
  intro terminals editor
  have represents : terminals.RepresentsLines editor :=
    Terminals.run_representsLines paging memory printBuffer events
  refine ⟨represents, ?_, ?_⟩
  · intro c mapped
    exact (represents.hold c).characterConvert_eq mapped
  · intro event t elsewhere
    exact LineEditor.step_elsewhere elsewhere event

end PonyOS.Terminal
