import PonyOS.Lib.Count
import PonyOS.Lib.Transition
import PonyOS.Terminal.Switching

/-!
# Presses and repeats

A key that is held repeats its make code, so a make code is a press only if the
key was up.  The log below reads a stream of codes that way.  The driver takes
every make code for a press and every code above `127` for the release of a key
that is down.  It agrees with the log in all states of a run exactly if the run
has no repeat and no release of a key that is up.
-/

namespace PonyOS.Terminal

open PonyOS.Lib.Count
open PonyOS.Lib.Transition
open PonyOS.Lib.Word
open PonyOS.Paging

universe u

/-! ## The log of a stream -/

/-- Which keys are down, and how often Caps Lock went down. -/
structure KeyLog where
  held : Nat → Bool
  capsPresses : Nat

namespace KeyLog

/-- No key was touched. -/
def initial : KeyLog :=
  { held := fun _ => false, capsPresses := 0 }

/-- One code of the stream.  The first make code after a break code is a press;
the next ones are repeats. -/
def key (log : KeyLog) (c : Nat) : KeyLog :=
  if c > 127 then { log with held := Function.update log.held (c - 128) false }
  else
    { held := Function.update log.held c true
      capsPresses :=
        if c = scancodeCapsLock ∧ log.held c = false then log.capsPresses + 1
        else log.capsPresses }

/-- One event of the terminals. -/
def step (log : KeyLog) : Event → KeyLog
  | .key _ c => log.key c.toNat
  | _ => log

/-- The event is not a repeat, and not the release of a key that is up. -/
def Changes (log : KeyLog) : Event → Prop
  | .key _ c =>
      if c.toNat > 127 then log.held (c.toNat - 128) = true else log.held c.toNat = false
  | _ => True

end KeyLog

/-- `cap_status` is the parity of the presses of Caps Lock, and `hold_num` the
number of keys that are down. -/
structure Tracks (keyboard : Keyboard) (log : KeyLog) : Prop where
  held : keyboard.pressedKey = log.held
  caps : keyboard.capStatus = decide (log.capsPresses % 2 = 1)
  count : keyboard.holdNum = ((List.range 128).countP keyboard.pressedKey : Nat)

/-! ## The handler -/

/-- What the driver keeps of the keys themselves. -/
def Keyboard.modifiers (keyboard : Keyboard) : (Nat → Bool) × Bool × Int :=
  (keyboard.pressedKey, keyboard.capStatus, keyboard.holdNum)

section Handler

variable {σ : Type u} (ops : ScreenOps σ) (pidFree : Bool) (screen : σ) (keyboard : Keyboard)

theorem altKey_modifiers (c : Nat) :
    (altKey ops pidFree screen keyboard c).keyboard.modifiers = keyboard.modifiers := by
  obtain ⟨second, third, changed⟩ := altKey_keyboard ops pidFree screen keyboard c
  rw [changed]
  rfl

/-- The press and the release come first, and no branch touches them again. -/
theorem scancodeProcessing_modifiers (c : UInt8) :
    (scancodeProcessing ops pidFree screen keyboard c).keyboard.modifiers =
      if c.toNat > 127 then (releaseKey keyboard c.toNat).modifiers
      else (pressKey keyboard c.toNat).modifiers := by
  have typed : (makeBreak ops pidFree screen keyboard c.toNat).keyboard.modifiers =
      if c.toNat > 127 then (releaseKey keyboard c.toNat).modifiers
      else (pressKey keyboard c.toNat).modifiers := by
    simp only [makeBreak]
    split_ifs
    · rfl
    · rfl
    · exact altKey_modifiers ops pidFree screen _ _
    · rfl
    · rfl
  rw [← typed]
  simp only [scancodeProcessing, backspaceKey, enterKey]
  split_ifs <;> rfl

end Handler

/-! ## One code -/

section Key

variable {keyboard next : Keyboard} {log : KeyLog} {c : Nat}

/-- A release is counted exactly if the key was down. -/
theorem Tracks.release_iff (tracks : Tracks keyboard log) (released : c > 127) (byte : c < 256)
    (same : next.modifiers = (releaseKey keyboard c).modifiers) :
    Tracks next (log.key c) ↔ log.held (c - 128) = true := by
  simp only [Keyboard.modifiers, releaseKey, Prod.mk.injEq] at same
  obtain ⟨heldEq, capsEq, countEq⟩ := same
  have member : c - 128 ∈ List.range 128 := List.mem_range.mpr (by omega)
  have counted := tracks.count
  rw [← tracks.held, KeyLog.key, if_pos released]
  constructor
  · intro tracked
    by_contra up
    have unchanged : Function.update keyboard.pressedKey (c - 128) false = keyboard.pressedKey := by
      rw [← Bool.eq_false_iff.mpr up, Function.update_eq_self]
    have wrong := tracked.count
    rw [heldEq, unchanged, countEq] at wrong
    omega
  · intro down
    have fewer := countP_update_false List.nodup_range member down
    refine ⟨?_, ?_, ?_⟩
    · rw [heldEq, tracks.held]
    · rw [capsEq, tracks.caps]
    · rw [heldEq, countEq]
      omega

/-- A press is counted exactly if the key was up. -/
theorem Tracks.press_iff (tracks : Tracks keyboard log) (pressed : ¬ c > 127)
    (same : next.modifiers = (pressKey keyboard c).modifiers) :
    Tracks next (log.key c) ↔ log.held c = false := by
  simp only [Keyboard.modifiers, pressKey, Prod.mk.injEq] at same
  obtain ⟨heldEq, capsEq, countEq⟩ := same
  have member : c ∈ List.range 128 := List.mem_range.mpr (by omega)
  have counted := tracks.count
  rw [KeyLog.key, if_neg pressed]
  constructor
  · intro tracked
    by_contra notUp
    have down : keyboard.pressedKey c = true := by
      rw [tracks.held]
      exact eq_true_of_ne_false notUp
    have unchanged : Function.update keyboard.pressedKey c true = keyboard.pressedKey := by
      rw [← down, Function.update_eq_self]
    have wrong := tracked.count
    rw [heldEq, unchanged, countEq] at wrong
    omega
  · intro up
    have keyUp : keyboard.pressedKey c = false := by
      rw [tracks.held]
      exact up
    have more := countP_update_true List.nodup_range member keyUp
    refine ⟨?_, ?_, ?_⟩
    · rw [heldEq, tracks.held]
    · rw [capsEq, tracks.caps]
      by_cases isCaps : c = scancodeCapsLock
      · simp only [if_pos isCaps, if_pos (And.intro isCaps up)]
        rw [← decide_not, decide_eq_decide]
        omega
      · rw [if_neg isCaps, if_neg fun both => isCaps both.1]
    · rw [heldEq, countEq, more, counted]
      rfl

end Key

/-! ## Whole runs -/

/-- The driver and the log read one event alike exactly if it changes a key. -/
theorem Tracks.step_iff {terminals : Terminals} {log : KeyLog}
    (tracks : Tracks terminals.keyboard log) (event : Event) :
    Tracks (terminals.step event).keyboard (log.step event) ↔ log.Changes event := by
  cases event with
  | key pidFree c =>
      have same := scancodeProcessing_modifiers consoleOps pidFree terminals.console
        terminals.keyboard c
      by_cases released : c.toNat > 127
      · rw [if_pos released] at same
        rw [KeyLog.Changes, if_pos released]
        exact tracks.release_iff released c.toNat_lt same
      · rw [if_neg released] at same
        rw [KeyLog.Changes, if_neg released]
        exact tracks.press_iff released same
  | putcScroll c => exact iff_of_true tracks trivial
  | putsScroll s len => exact iff_of_true tracks trivial
  | vidmapStore offset byte => exact iff_of_true tracks trivial
  | setActiveTerminal terminalId => exact iff_of_true tracks trivial
  | setDisiplayTerminal terminalId =>
      have same : (terminals.step (.setDisiplayTerminal terminalId)).keyboard =
          terminals.keyboard := by
        rw [Terminals.step]
      rw [same]
      exact iff_of_true tracks trivial

theorem boot_tracks (paging : PageTables) (memory : Memory) (printBuffer : Nat → UInt8) :
    Tracks (Terminals.boot paging memory printBuffer).keyboard .initial := by
  refine ⟨rfl, rfl, ?_⟩
  have nothing : (List.range 128).countP (fun _ => false) = 0 :=
    List.countP_eq_zero.mpr fun _ _ => Bool.false_ne_true
  exact congrArg Nat.cast nothing.symm

/-- Caps Lock and the number of held keys are right in all states of a run exactly
if every make code is of a key that is up and every code above `127` of one that
is down. -/
theorem modifiers_tracked_iff (paging : PageTables) (memory : Memory)
    (printBuffer : Nat → UInt8) (events : List Event) :
    (∀ before, before <+: events →
        Tracks (before.foldl Terminals.step (Terminals.boot paging memory printBuffer)).keyboard
          (before.foldl KeyLog.step .initial)) ↔
      ∀ before event, before ++ [event] <+: events →
        (before.foldl KeyLog.step .initial).Changes event :=
  foldl_relation_iff Terminals.step KeyLog.step
    (fun terminals log => Tracks terminals.keyboard log) KeyLog.Changes
    (fun _ _ event tracks => tracks.step_iff event) _ _
    (boot_tracks paging memory printBuffer) events

/-- Caps Lock, held until its make code repeats: the light is off again. -/
theorem capsRepeat_not_tracked :
    let events := [Event.key true 58, .key true 58]
    ¬ Tracks (events.foldl Terminals.step
        (Terminals.boot zeroTables (fun _ => 0) fun _ => 0)).keyboard
      (events.foldl KeyLog.step .initial) := by
  intro events tracked
  have pressed : Tracks _ ([Event.key true 58].foldl KeyLog.step .initial) :=
    (boot_tracks zeroTables (fun _ => 0) fun _ => 0).step_iff (.key true 58) |>.mpr rfl
  have repeated := (pressed.step_iff (.key true 58)).mp tracked
  simp [KeyLog.Changes, KeyLog.step, KeyLog.key] at repeated

end PonyOS.Terminal
