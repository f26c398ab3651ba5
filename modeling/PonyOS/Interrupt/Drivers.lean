import PonyOS.Clock.Rate
import PonyOS.Interrupt.Service
import PonyOS.Lib.Critical

/-!
# The drivers and their devices

The clock chip has its registers behind an index port and a data port, so every
access takes two steps that no other code may come between.  The keyboard
controller hands out its scancodes one by one and raises its line for each.  The
handlers of the clock, the keyboard and the timer, the initialisations and the
calls of the clock are written here access by access, with `cli` and `sti` where
the source has them.

In every run that starts with both devices quiet, register A of the clock is what
the requests that were accepted make of it, no scancode is lost or handled twice,
and whenever interrupts are let in, a clock that asks for an interrupt and a
keyboard that holds a scancode have their lines pending.  A request can still
stop the clock: some of those that are accepted select no rate.
-/

namespace PonyOS.Interrupt

open PonyOS.Clock
open PonyOS.Lib.Critical
open PonyOS.Lib.Transition
open PonyOS.Syscall (maxFreq rtcOddBit)

/-! ## The devices -/

/-- The clock chip. -/
structure Rtc where
  /-- The last value on the index port. -/
  selected : UInt8
  registerA : UInt8
  registerB : UInt8
  registerC : UInt8
  updateInProgress : Bool

namespace Rtc

/-- One of the enabled conditions has come up since register C was read. -/
def line (rtc : Rtc) : Bool :=
  rtc.registerB &&& rtc.registerC &&& 0x70 != 0

/-- Register A selects a rate; at zero the periodic condition never comes up. -/
def ticking (rtc : Rtc) : Bool :=
  rtc.registerA &&& 0x0F != 0

/-- `NMI_MASK` is not part of the index. -/
def index (rtc : Rtc) : UInt8 :=
  rtc.selected &&& 0x7F

/-- A read of the data port.  Register C is cleared by it. -/
def read (rtc : Rtc) : UInt8 × Rtc :=
  if rtc.index = 0x0A then
    (rtc.registerA ||| (if rtc.updateInProgress then 0x80 else 0), rtc)
  else if rtc.index = 0x0B then (rtc.registerB, rtc)
  else if rtc.index = 0x0C then
    (rtc.registerC ||| (if rtc.line then 0x80 else 0), { rtc with registerC := 0 })
  else (0, rtc)

/-- A write of the data port.  The highest bit of register A cannot be written. -/
def write (rtc : Rtc) (value : UInt8) : Rtc :=
  if rtc.index = 0x0A then { rtc with registerA := value &&& 0x7F }
  else if rtc.index = 0x0B then { rtc with registerB := value }
  else rtc

end Rtc

/-- The state that drivers, handlers and devices share. -/
structure Devices where
  controllers : Controllers
  rtc : Rtc
  /-- `next_interrupt`. -/
  nextInterrupt : Bool
  /-- The scancodes that the keyboard controller holds. -/
  keys : List UInt8
  /-- The arguments of `scancode_processing` so far. -/
  processed : List UInt8

namespace Devices

/-- The clock changes, and its line is raised if it comes up. -/
def setRtc (devices : Devices) (rtc : Rtc) : Devices :=
  if devices.rtc.line = false ∧ rtc.line = true then
    { devices with rtc := rtc, controllers := devices.controllers.raise 8 }
  else { devices with rtc := rtc }

/-- A read of the data port of the keyboard controller.  The line comes up again
for the next scancode. -/
def takeKey (devices : Devices) : UInt8 × Devices :=
  match devices.keys with
  | [] => (0, devices)
  | [key] => (key, { devices with keys := [] })
  | key :: rest =>
      (key, { devices with keys := rest, controllers := devices.controllers.raise 1 })

end Devices

/-- What the drivers do to the devices in one step. -/
inductive Access
  | outb (value : UInt8) (port : UInt16)
  | inb (port : UInt16)
  | enableIrq (irqNum : Nat)
  | sendEoi (irqNum : Nat)
  | setNextInterrupt (value : Bool)
  | getNextInterrupt
  | scancodeProcessing (scancode : UInt8)
  deriving DecidableEq

/-- One access, with the byte that it reads. -/
def performAccess (devices : Devices) : Access → UInt8 × Devices
  | .outb value port =>
      if port = 0x70 then (0, { devices with rtc := { devices.rtc with selected := value } })
      else if port = 0x71 then (0, devices.setRtc (devices.rtc.write value))
      else (0, devices)
  | .inb port =>
      if port = 0x71 then (devices.rtc.read.1, devices.setRtc devices.rtc.read.2)
      else if port = 0x64 then (if devices.keys.isEmpty then 0 else 1, devices)
      else if port = 0x60 then devices.takeKey
      else (0, devices)
  | .enableIrq irqNum =>
      (0, { devices with controllers := devices.controllers.enableIrq irqNum })
  | .sendEoi irqNum => (0, { devices with controllers := devices.controllers.sendEoi irqNum })
  | .setNextInterrupt value => (0, { devices with nextInterrupt := value })
  | .getNextInterrupt => (if devices.nextInterrupt then 1 else 0, devices)
  | .scancodeProcessing scancode =>
      (0, { devices with processed := devices.processed ++ [scancode] })

/-- What the devices do on their own. -/
inductive DeviceEvent
  /-- The keyboard sends a scancode. -/
  | press (scancode : UInt8)
  /-- Conditions of the clock come up, the periodic one only at a rate. -/
  | tick (conditions : UInt8)
  /-- The clock begins or ends an update. -/
  | update (inProgress : Bool)
  /-- Another device raises its line. -/
  | raise (irqNum : Nat)
  deriving DecidableEq

/-- A device moves. -/
def deviceStep (devices : Devices) : DeviceEvent → Option Devices
  | .press scancode =>
      if devices.keys = [] then
        some { devices with keys := [scancode], controllers := devices.controllers.raise 1 }
      else some { devices with keys := devices.keys ++ [scancode] }
  | .tick conditions =>
      if conditions &&& 0x40 ≠ 0 ∧ devices.rtc.ticking = false then none
      else
        some (devices.setRtc
          { devices.rtc with registerC := devices.rtc.registerC ||| (conditions &&& 0x70) })
  | .update inProgress =>
      some { devices with rtc := { devices.rtc with updateInProgress := inProgress } }
  | .raise irqNum =>
      if irqNum < 16 ∧ irqNum ∉ [1, 2, 8] then
        some { devices with controllers := devices.controllers.raise irqNum }
      else none

/-! ## The code -/

/-- The loops of the drivers. -/
inductive DriverLabel
  /-- `while( (inb(KEYBOARD_STATUS_PORT)&0x1)>0 )`. -/
  | keyboardLoop
  /-- `while(next_interrupt == 0 )`. -/
  | rtcReadLoop
  deriving DecidableEq

/-- Code of a driver. -/
abbrev DriverCode := Code Access UInt8 DriverLabel

/-- An access whose byte is not used. -/
def access (access : Access) (next : DriverCode) : DriverCode :=
  .perform access fun _ => next

/-- The index of a register, with `NMI_MASK`, to `RTC_REGISTER_PORT`. -/
def select (register : UInt8) (next : DriverCode) : DriverCode :=
  access (.outb (0x80 + register) 0x70) next

/-- `set_freq`. -/
def setFreqCode (freq : Int) (next : DriverCode) : DriverCode :=
  select 0x0A (.perform (.inb 0x71) fun prev =>
    select 0x0A (access (.outb (setFreq prev freq) 0x71) next))

/-- `rtc_init`. -/
def rtcInit (next : DriverCode) : DriverCode :=
  access (.setNextInterrupt false) (.cli
    (select 0x0A (access (.outb 0x20 0x71)
    (select 0x0A (.perform (.inb 0x71) fun prev =>
    select 0x0A (access (.outb ((prev &&& 0xF0) ||| 0x06) 0x71)
    (select 0x0B (.perform (.inb 0x71) fun prev =>
    select 0x0B (access (.outb (prev ||| 0x40) 0x71)
    (access (.enableIrq 8) (.sti next)))))))))))

/-- `pit_init`; the divisor is 1193180 / 30. -/
def pitInit (next : DriverCode) : DriverCode :=
  .cli (access (.outb 0x36 0x43) (access (.outb 0x5C 0x40) (access (.outb 0x9B 0x40)
    (access (.enableIrq 0) (.sti next)))))

/-- The initialisations of `entry` behind `i8259_init`: `keyboard_init`,
`rtc_init`, `pit_init` and the `sti` after them. -/
def bootCode : DriverCode :=
  access (.enableIrq 1) (rtcInit (pitInit (.sti .done)))

/-- `rtc_interrupt_handler`. -/
def rtcInterruptHandler : DriverCode :=
  .cli (access (.setNextInterrupt true) (select 0x0C (access (.inb 0x71)
    (access (.sendEoi 8) (.sti .done)))))

/-- `keyboard_interrupt_handler`. -/
def keyboardInterruptHandler : DriverCode :=
  .cli (access (.sendEoi 1) (.goto .keyboardLoop))

/-- `pit_handler`, which may give the processor away, and the `sti` of its
wrapper. -/
def pitHandler : DriverCode :=
  .cli (access (.sendEoi 0) (.yield (.sti .done)))

/-- The bodies of the loops.  A key may start a shell, which takes the processor
from the handler. -/
def loopBody : DriverLabel → DriverCode
  | .keyboardLoop =>
      .perform (.inb 0x64) fun status =>
        if status &&& 1 > 0 then
          .perform (.inb 0x60) fun placeholder =>
            access (.scancodeProcessing placeholder) (.yield (.goto .keyboardLoop))
        else .sti .done
  | .rtcReadLoop =>
      .perform .getNextInterrupt fun nextInterrupt =>
        if nextInterrupt = 0 then .goto .rtcReadLoop
        else access (.setNextInterrupt false) .done

/-- The handler that a vector leads to. -/
def handlerCode : Label → Option DriverCode
  | .pitHandlerWrapper => some pitHandler
  | .keyboardHandlerWrapper => some keyboardInterruptHandler
  | .rtcHandlerWrapper => some rtcInterruptHandler
  | _ => none

/-- The processor takes an interrupt. -/
def deliverInterrupt (devices : Devices) : Option (DriverCode × Devices) :=
  match devices.controllers.take with
  | none => none
  | some outcome =>
      (handlerCode (installed outcome.1.vector.toNat)).map fun handler =>
        (handler, { devices with controllers := outcome.2 })

/-- What a process asks for.  Other calls let interrupts in and keep them out,
and give the processor away. -/
inductive DriverRequest
  | rtcOpen
  | rtcWrite (freq : Option Int) (size : Int)
  | rtcRead
  | other (yields : Nat) (flags : List Bool)
  deriving DecidableEq

/-- The frequency that `rtc_write` hands to `set_freq`, if it gets that far. -/
def acceptedFreq (freq : Option Int) (size : Int) : Option Int :=
  match freq with
  | none => none
  | some freq =>
      if size ≠ 4 then none
      else if freq ≤ 0 then none
      else if rtcOddBit 32 (if freq > maxFreq then maxFreq else freq).toNat then none
      else some freq

/-- `cli` and `sti` in the order of a list. -/
def toggles : List Bool → DriverCode
  | [] => .done
  | true :: rest => .sti (toggles rest)
  | false :: rest => .cli (toggles rest)

/-- The processor is given away a number of times. -/
def yielding : Nat → DriverCode → DriverCode
  | 0, next => next
  | yields + 1, next => .yield (yielding yields next)

/-- The code of a call. -/
def requestCode : DriverRequest → DriverCode
  | .rtcOpen => .cli (setFreqCode 2 (.sti .done))
  | .rtcWrite freq size =>
      .cli (match acceptedFreq freq size with
        | none => .sti .done
        | some freq => setFreqCode freq (.sti .done))
  | .rtcRead => .sti (.goto .rtcReadLoop)
  | .other yields flags => yielding yields (toggles flags)

/-- The drivers as a system with critical sections. -/
def drivers : System Devices Access UInt8 DriverLabel DriverRequest DeviceEvent where
  perform := performAccess
  body := loopBody
  deliver := deliverInterrupt
  entry := requestCode
  device := deviceStep

/-- The call of a process writes the register as the code here does. -/
theorem rtcWriteRegister_eq (registerA : UInt8) (freq : Option Int) (size : Int) :
    rtcWriteRegister registerA freq size =
      match acceptedFreq freq size with
      | none => (-1, none)
      | some freq => (0, some (setFreq registerA freq)) := by
  unfold rtcWriteRegister acceptedFreq
  cases freq with
  | none => rfl
  | some freq =>
      dsimp only
      generalize rtcOddBit 32 _ = odd
      by_cases wrongSize : size ≠ 4
      · rw [if_pos wrongSize, if_pos wrongSize]
      · rw [if_neg wrongSize, if_neg wrongSize]
        by_cases negative : freq ≤ 0
        · rw [if_pos negative, if_pos negative]
        · rw [if_neg negative, if_neg negative]
          cases odd with
          | true => rfl
          | false => rfl

/-! ## What the devices do on their own -/

namespace Devices

/-- What any moves of the devices leave alone, and what they see to: scancodes
are added behind, requests stay, and where a line comes up its request is there. -/
structure Moved (before after : Devices) (more : List UInt8) : Prop where
  registers : after.controllers.enabled = before.controllers.enabled ∧
    after.rtc.selected = before.rtc.selected ∧ after.rtc.registerA = before.rtc.registerA ∧
    after.rtc.registerB = before.rtc.registerB ∧ after.processed = before.processed
  keys : after.keys = before.keys ++ more
  inv : ∀ serving,
    Interrupts.Inv
      { controllers := before.controllers, interruptFlag := false, serving := serving } →
    Interrupts.Inv
      { controllers := after.controllers, interruptFlag := false, serving := serving }
  requested : ∀ irqNum, before.controllers.requested irqNum = true →
    after.controllers.requested irqNum = true
  clock : after.rtc.line = true →
    before.rtc.line = true ∨ after.controllers.requested 8 = true
  keyboard : before.keys = [] → more ≠ [] → after.controllers.requested 1 = true

variable {devices after : Devices} {more : List UInt8}

theorem requested_raise_of {controllers : Controllers} {raised irqNum : Nat} (isLine : raised < 16)
    (here : irqNum = raised ∨ controllers.requested irqNum = true) :
    (controllers.raise raised).requested irqNum = true := by
  rw [Controllers.requested_raise isLine, Function.update_apply]
  split
  · rfl
  · rename_i other
    exact here.resolve_left other

/-- The clock changes as its line allows. -/
theorem moved_setRtc {rtc : Rtc} (selected : rtc.selected = devices.rtc.selected)
    (registerA : rtc.registerA = devices.rtc.registerA)
    (registerB : rtc.registerB = devices.rtc.registerB) :
    Moved devices (devices.setRtc rtc) [] := by
  unfold setRtc
  split
  · exact
      { registers := ⟨Controllers.enabled_raise 8, selected, registerA, registerB, rfl⟩
        keys := (List.append_nil _).symm
        inv := fun serving inv => inv.raise (show 8 < 16 ∧ 8 ≠ 2 by decide)
        requested := fun irqNum requested => requested_raise_of (by decide) (Or.inr requested)
        clock := fun _ => Or.inr (requested_raise_of (by decide) (Or.inl rfl))
        keyboard := fun _ more => absurd rfl more }
  · rename_i same
    exact
      { registers := ⟨rfl, selected, registerA, registerB, rfl⟩
        keys := (List.append_nil _).symm
        inv := fun serving inv => inv
        requested := fun irqNum requested => requested
        clock := fun isUp => Or.inl (by
          cases before : devices.rtc.line with
          | true => rfl
          | false => exact absurd ⟨before, isUp⟩ same)
        keyboard := fun _ more => absurd rfl more }

/-- The scancodes that an event adds. -/
def pressed : DeviceEvent → List UInt8
  | .press scancode => [scancode]
  | _ => []

theorem moved_deviceStep {event : DeviceEvent} (moved : deviceStep devices event = some after) :
    Moved devices after (pressed event) := by
  cases event with
  | press scancode =>
      simp only [deviceStep] at moved
      split at moved
      · rename_i empty
        rcases Option.some.inj moved with rfl
        exact
          { registers := ⟨Controllers.enabled_raise 1, rfl, rfl, rfl, rfl⟩
            keys := by rw [empty]; rfl
            inv := fun serving inv => inv.raise (show 1 < 16 ∧ 1 ≠ 2 by decide)
            requested := fun irqNum requested => requested_raise_of (by decide) (Or.inr requested)
            clock := Or.inl
            keyboard := fun _ _ => requested_raise_of (by decide) (Or.inl rfl) }
      · rename_i busy
        rcases Option.some.inj moved with rfl
        exact
          { registers := ⟨rfl, rfl, rfl, rfl, rfl⟩
            keys := rfl
            inv := fun serving inv => inv
            requested := fun irqNum requested => requested
            clock := Or.inl
            keyboard := fun empty _ => absurd empty busy }
  | tick conditions =>
      simp only [deviceStep] at moved
      split at moved
      · contradiction
      · rcases Option.some.inj moved with rfl
        exact moved_setRtc rfl rfl rfl
  | update inProgress =>
      rcases Option.some.inj moved with rfl
      exact
        { registers := ⟨rfl, rfl, rfl, rfl, rfl⟩
          keys := (List.append_nil _).symm
          inv := fun serving inv => inv
          requested := fun irqNum requested => requested
          clock := Or.inl
          keyboard := fun _ more => absurd rfl more }
  | raise irqNum =>
      simp only [deviceStep] at moved
      split at moved
      · rename_i isLine
        rcases Option.some.inj moved with rfl
        have other : irqNum < 16 ∧ irqNum ≠ 2 := ⟨isLine.1, fun same => isLine.2 (by simp [same])⟩
        exact
          { registers := ⟨Controllers.enabled_raise irqNum, rfl, rfl, rfl, rfl⟩
            keys := (List.append_nil _).symm
            inv := fun serving inv => inv.raise other
            requested := fun line requested => requested_raise_of isLine.1 (Or.inr requested)
            clock := Or.inl
            keyboard := fun _ more => absurd rfl more }
      · contradiction

end Devices

/-! ## Assertions -/

/-- What is observed of requests and devices: what register A should be, and the
scancodes that have come. -/
structure Observed where
  registerA : UInt8
  arrived : List UInt8

/-- What a frequency makes of register A. -/
def programmed (registerA : UInt8) (freq : Int) : UInt8 :=
  setFreq registerA freq &&& 0x7F

/-- A request as it is observed. -/
def noteRequest (seen : Observed) : DriverRequest → Observed
  | .rtcOpen => { seen with registerA := programmed seen.registerA 2 }
  | .rtcWrite freq size =>
      match acceptedFreq freq size with
      | none => seen
      | some freq => { seen with registerA := programmed seen.registerA freq }
  | _ => seen

/-- A move of the devices as it is observed. -/
def noteDevice (seen : Observed) (event : DeviceEvent) : Observed :=
  { seen with arrived := seen.arrived ++ Devices.pressed event }

/-- What is known at a point of a driver: the line in service, whether requests
of the clock and of the keyboard are sure to be pending, whether the keyboard is
sure to hold a scancode, the scancode in hand, register A and what it should
become, and a fact about the lines that are enabled, register B and the register
selected. -/
structure Point where
  serving : Option Nat
  clockArmed : Bool
  keysArmed : Bool
  present : Bool
  held : List UInt8
  registerA : UInt8
  aim : UInt8
  fact : (Nat → Bool) → UInt8 → UInt8 → Prop

/-- The devices are as a point says. -/
structure Point.Holds (point : Point) (seen : Observed) (devices : Devices) : Prop where
  inv : Interrupts.Inv
    { controllers := devices.controllers
      interruptFlag := false
      serving := point.serving.map fun irqNum => 0x20 + BitVec.ofNat 8 irqNum }
  clock : point.clockArmed = true → devices.rtc.line = true →
    devices.controllers.requested 8 = true
  keyboard : point.keysArmed = true → devices.keys ≠ [] → devices.controllers.requested 1 = true
  present : point.present = true → devices.keys ≠ []
  text : devices.processed ++ point.held ++ devices.keys = seen.arrived
  registerA : devices.rtc.registerA = point.registerA
  aim : seen.registerA = point.aim
  fact : point.fact devices.controllers.enabled devices.rtc.registerB devices.rtc.selected

/-- The lines of keyboard and clock are enabled, and the clock interrupts
periodically. -/
def isOn (enabled : Nat → Bool) (registerB : UInt8) (_ : UInt8) : Prop :=
  enabled 1 = true ∧ enabled 8 = true ∧ registerB &&& 0x40 ≠ 0

/-- Between the drivers: both requests are sure, nothing is in hand. -/
def Point.between (registerA : UInt8) : Point :=
  { serving := none
    clockArmed := true
    keysArmed := true
    present := false
    held := []
    registerA := registerA
    aim := registerA
    fact := isOn }

/-- At the head of the keyboard loop the request may be the one that is handled. -/
def Point.keyboardLoop (registerA : UInt8) : Point :=
  { Point.between registerA with keysArmed := false }

/-- The contract of the drivers. -/
def driversContract : Contract Devices DriverLabel DriverRequest DeviceEvent Observed where
  good seen devices := (Point.between seen.registerA).Holds seen devices
  atLabel
    | .keyboardLoop, seen, devices => (Point.keyboardLoop seen.registerA).Holds seen devices
    | .rtcReadLoop, seen, devices => (Point.between seen.registerA).Holds seen devices
  isOpen label := label = .rtcReadLoop
  noteCall := noteRequest
  noteDevice := noteDevice

theorem Point.Holds.moved {point : Point} {seen : Observed} {devices after : Devices}
    {more : List UInt8} (holds : point.Holds seen devices)
    (moved : Devices.Moved devices after more) :
    point.Holds { seen with arrived := seen.arrived ++ more } after := by
  rcases moved.registers with ⟨enabled, selected, registerA, registerB, processed⟩
  constructor
  · exact moved.inv _ holds.inv
  · intro armed isUp
    rcases moved.clock isUp with before | requested
    · exact moved.requested 8 (holds.clock armed before)
    · exact requested
  · intro armed present
    by_cases empty : devices.keys = []
    · rw [moved.keys, empty, List.nil_append] at present
      exact moved.keyboard empty present
    · exact moved.requested 1 (holds.keyboard armed empty)
  · intro isPresent
    rw [moved.keys]
    exact List.append_ne_nil_of_left_ne_nil (holds.present isPresent) more
  · rw [processed, moved.keys, ← holds.text, List.append_assoc _ devices.keys more]
  · exact registerA.trans holds.registerA
  · exact holds.aim
  · rw [enabled, registerB, selected]
    exact holds.fact

theorem Point.stable (point : Point) :
    driversContract.Stable drivers point.Holds := by
  intro seen devices event after holds moved
  exact holds.moved (Devices.moved_deviceStep moved)

/-! ## What the accesses do -/

namespace Point.Holds

variable {point : Point} {seen : Observed} {devices : Devices}

theorem select (holds : point.Holds seen devices) (register : UInt8)
    {fact : (Nat → Bool) → UInt8 → UInt8 → Prop}
    (selected : ∀ {enabled registerB before}, point.fact enabled registerB before →
      fact enabled registerB (0x80 + register)) :
    Point.Holds { point with fact := fact } seen
      (performAccess devices (.outb (0x80 + register) 0x70)).2 :=
  { holds with fact := selected holds.fact }

theorem index_of {fact : (Nat → Bool) → UInt8 → UInt8 → Prop} {register index : UInt8}
    {enabled : Nat → Bool} {rtc : Rtc} (holds : fact enabled rtc.registerB rtc.selected)
    (selected : ∀ {enabled registerB before}, fact enabled registerB before → before = register)
    (masked : register &&& 0x7F = index) : rtc.index = index := by
  rw [Rtc.index, selected holds, masked]

/-- The clock without its line changing. -/
theorem setRtc_quiet (devices : Devices) (rtc : Rtc) (same : rtc.line = devices.rtc.line) :
    devices.setRtc rtc = { devices with rtc := rtc } := by
  unfold Devices.setRtc
  rw [if_neg]
  rintro ⟨low, high⟩
  rw [same, low] at high
  contradiction

theorem writeA (holds : point.Holds seen devices) {value registerA : UInt8}
    (masked : value &&& 0x7F = registerA)
    (selected : ∀ {enabled registerB before}, point.fact enabled registerB before →
      before = 0x8A) :
    Point.Holds { point with registerA := registerA } seen
      (performAccess devices (.outb value 0x71)).2 := by
  have written : devices.rtc.write value = { devices.rtc with registerA := value &&& 0x7F } := by
    rw [Rtc.write, if_pos (index_of holds.fact selected (by decide))]
  have performed : (performAccess devices (.outb value 0x71)).2 =
      { devices with rtc := { devices.rtc with registerA := value &&& 0x7F } } := by
    rw [← setRtc_quiet devices _ (by rfl), ← written]
    rfl
  rw [performed]
  exact { holds with registerA := masked }

/-- Register A is read, with a bit that the clock sets on its own. -/
theorem readA (holds : point.Holds seen devices)
    (selected : ∀ {enabled registerB before}, point.fact enabled registerB before →
      before = 0x8A) :
    ((performAccess devices (.inb 0x71)).1 = point.registerA ∨
        (performAccess devices (.inb 0x71)).1 = point.registerA ||| 0x80) ∧
      point.Holds seen (performAccess devices (.inb 0x71)).2 := by
  have isRead : devices.rtc.read =
      (devices.rtc.registerA ||| (if devices.rtc.updateInProgress then 0x80 else 0),
        devices.rtc) := by
    rw [Rtc.read, if_pos (index_of holds.fact selected (by decide))]
  have performed : performAccess devices (.inb 0x71) =
      (devices.rtc.registerA ||| (if devices.rtc.updateInProgress then 0x80 else 0), devices) := by
    have quiet := setRtc_quiet devices devices.rtc rfl
    simp only [performAccess, isRead, quiet]
    rfl
  rw [performed, ← holds.registerA]
  refine ⟨?_, holds⟩
  cases devices.rtc.updateInProgress with
  | true => exact Or.inr rfl
  | false => exact Or.inl (by simp)

/-- Register B is written, which may bring the line up. -/
theorem writeB (holds : point.Holds seen devices) (value : UInt8) (armed : point.clockArmed = true)
    (selected : ∀ {enabled registerB before}, point.fact enabled registerB before →
      before = 0x8B)
    {fact : (Nat → Bool) → UInt8 → UInt8 → Prop}
    (written : ∀ {enabled registerB before}, point.fact enabled registerB before →
      fact enabled value before) :
    Point.Holds { point with fact := fact } seen
      (performAccess devices (.outb value 0x71)).2 := by
  have index := index_of holds.fact selected (show (0x8B : UInt8) &&& 0x7F = 0x0B by decide)
  have performed : (performAccess devices (.outb value 0x71)).2 =
      devices.setRtc { devices.rtc with registerB := value } := by
    have isWritten : devices.rtc.write value = { devices.rtc with registerB := value } := by
      rw [Rtc.write, index, if_neg (by decide), if_pos rfl]
    rw [← isWritten]
    rfl
  rw [performed, Devices.setRtc]
  split
  · exact
      { inv := holds.inv.raise (show 8 < 16 ∧ 8 ≠ 2 by decide)
        clock := fun _ _ => Devices.requested_raise_of (by decide) (Or.inl rfl)
        keyboard := fun armed present =>
          Devices.requested_raise_of (by decide) (Or.inr (holds.keyboard armed present))
        present := holds.present
        text := holds.text
        registerA := holds.registerA
        aim := holds.aim
        fact := by
          have here := written holds.fact
          rw [← Controllers.enabled_raise 8] at here
          exact here }
  · rename_i same
    refine { holds with clock := ?_, fact := written holds.fact }
    intro _ isUp
    cases before : devices.rtc.line with
    | true => exact holds.clock armed before
    | false => exact absurd ⟨before, isUp⟩ same

theorem readB (holds : point.Holds seen devices)
    (selected : ∀ {enabled registerB before}, point.fact enabled registerB before →
      before = 0x8B) :
    point.Holds seen (performAccess devices (.inb 0x71)).2 := by
  have index := index_of holds.fact selected (show (0x8B : UInt8) &&& 0x7F = 0x0B by decide)
  have isRead : devices.rtc.read = (devices.rtc.registerB, devices.rtc) := by
    rw [Rtc.read, index, if_neg (by decide), if_pos rfl]
  have performed : (performAccess devices (.inb 0x71)).2 = devices := by
    have quiet := setRtc_quiet devices devices.rtc rfl
    simp only [performAccess, isRead, quiet]
    rfl
  rw [performed]
  exact holds

/-- Register C is read, which takes the line down. -/
theorem readC (holds : point.Holds seen devices)
    (selected : ∀ {enabled registerB before}, point.fact enabled registerB before →
      before = 0x8C) :
    Point.Holds { point with clockArmed := true } seen
      (performAccess devices (.inb 0x71)).2 := by
  have index := index_of holds.fact selected (show (0x8C : UInt8) &&& 0x7F = 0x0C by decide)
  have isDown : { devices.rtc with registerC := 0 }.line = false := by
    simp [Rtc.line]
  have performed : (performAccess devices (.inb 0x71)).2 =
      { devices with rtc := { devices.rtc with registerC := 0 } } := by
    have isRead : devices.rtc.read.2 = { devices.rtc with registerC := 0 } := by
      rw [Rtc.read, index, if_neg (by decide), if_neg (by decide), if_pos rfl]
    have quiet : devices.setRtc { devices.rtc with registerC := 0 } =
        { devices with rtc := { devices.rtc with registerC := 0 } } := by
      rw [Devices.setRtc, if_neg]
      rintro ⟨_, isUp⟩
      rw [isDown] at isUp
      contradiction
    rw [← quiet, ← isRead]
    rfl
  rw [performed]
  refine { holds with clock := ?_ }
  intro _ isUp
  rw [isDown] at isUp
  contradiction

theorem enableIrq (holds : point.Holds seen devices) {irqNum : Nat} (member : irqNum ∈ handled)
    {fact : (Nat → Bool) → UInt8 → UInt8 → Prop}
    (enabled : ∀ {enabled registerB selected}, point.fact enabled registerB selected →
      fact (Function.update enabled irqNum true) registerB selected) :
    Point.Holds { point with fact := fact } seen
      (performAccess devices (.enableIrq irqNum)).2 := by
  have small : ∀ line ∈ handled, line < 16 := by decide
  have changed := holds.inv.ready.enableIrq_eq irqNum
  have requested : (devices.controllers.enableIrq irqNum).requested =
      devices.controllers.requested := by
    rw [changed, Controllers.requested_change]
  have lines : (devices.controllers.enableIrq irqNum).enabled =
      Function.update devices.controllers.enabled irqNum true := by
    have isLine := small irqNum member
    rw [changed, Controllers.enabled_change true (by omega), Controllers.setLine, if_pos isLine]
  exact
    { inv := holds.inv.enableIrq member
      clock := fun armed isUp => (congrFun requested 8).trans (holds.clock armed isUp)
      keyboard := fun armed present =>
        (congrFun requested 1).trans (holds.keyboard armed present)
      present := holds.present
      text := holds.text
      registerA := holds.registerA
      aim := holds.aim
      fact := by
        have here := enabled holds.fact
        rw [← lines] at here
        exact here }

theorem sendEoi (holds : point.Holds seen devices) {irqNum : Nat} (member : irqNum ∈ handled)
    (serving : point.serving = some irqNum) :
    Point.Holds { point with serving := none } seen
      (performAccess devices (.sendEoi irqNum)).2 := by
  have inv := holds.inv
  rw [serving, Option.map_some] at inv
  have isLine : ∀ line ∈ handled, line < 16 := by decide
  have serves : devices.controllers.Serves irqNum := by
    rcases inv.busy _ rfl with ⟨_, line, other, vector, serves⟩
    have same := (endedBy_installed member).1.symm.trans
      ((congrArg BitVec.toNat vector).trans (endedBy_installed other).1)
    rcases Nat.add_left_cancel same with rfl
    exact serves
  have performed : (performAccess devices (.sendEoi irqNum)).2 =
      { devices with
        controllers := devices.controllers.withRegisters devices.controllers.master.irr 0
          devices.controllers.slave.irr 0 } := by
    rw [← serves.sendEoi (isLine irqNum member)]
    rfl
  rw [performed]
  exact { holds with inv := inv.afterEoi }

theorem status (holds : point.Holds seen devices) :
    (0 < (performAccess devices (.inb 0x64)).1 &&& 1 ∧
        Point.Holds { point with present := true } seen (performAccess devices (.inb 0x64)).2) ∨
      (¬ 0 < (performAccess devices (.inb 0x64)).1 &&& 1 ∧
        Point.Holds { point with keysArmed := true } seen
          (performAccess devices (.inb 0x64)).2) := by
  have performed : performAccess devices (.inb 0x64) =
      (if devices.keys.isEmpty then 0 else 1, devices) := rfl
  rw [performed]
  cases keys : devices.keys with
  | nil =>
      refine Or.inr ⟨show ¬ 0 < (0 : UInt8) &&& 1 by decide, ?_⟩
      exact { holds with keyboard := fun _ present => absurd keys present }
  | cons key rest =>
      refine Or.inl ⟨show 0 < (1 : UInt8) &&& 1 by decide, ?_⟩
      refine { holds with present := ?_ }
      intro _
      rw [keys]
      exact List.cons_ne_nil key rest

theorem takeKey (holds : point.Holds seen devices) (present : point.present = true)
    (held : point.held = []) :
    Point.Holds
      { point with
        keysArmed := true
        present := false
        held := [(performAccess devices (.inb 0x60)).1] } seen
      (performAccess devices (.inb 0x60)).2 := by
  have performed : performAccess devices (.inb 0x60) = devices.takeKey := rfl
  have text := holds.text
  rw [held, List.append_nil] at text
  rw [performed, Devices.takeKey]
  split
  · rename_i empty
    exact absurd empty (holds.present present)
  · rename_i key keys
    rw [keys] at text
    exact
      { holds with
        keyboard := fun _ present => absurd rfl present
        present := fun wrong => Bool.noConfusion wrong
        text := by rw [List.append_nil]; exact text }
  · rename_i key rest more keys
    rw [keys] at text
    exact
      { inv := holds.inv.raise (show 1 < 16 ∧ 1 ≠ 2 by decide)
        clock := fun armed isUp =>
          Devices.requested_raise_of (by decide) (Or.inr (holds.clock armed isUp))
        keyboard := fun _ _ => Devices.requested_raise_of (by decide) (Or.inl rfl)
        present := fun wrong => Bool.noConfusion wrong
        text := by rw [List.append_assoc]; exact text
        registerA := holds.registerA
        aim := holds.aim
        fact := by
          have here := holds.fact
          rw [← Controllers.enabled_raise 1] at here
          exact here }

theorem scancodeProcessing (holds : point.Holds seen devices) {scancode : UInt8}
    (held : point.held = [scancode]) :
    Point.Holds { point with held := [] } seen
      (performAccess devices (.scancodeProcessing scancode)).2 := by
  have text := holds.text
  rw [held] at text
  refine { holds with text := ?_ }
  rw [List.append_nil]
  exact text

theorem weaken (holds : point.Holds seen devices) {fact : (Nat → Bool) → UInt8 → UInt8 → Prop}
    (weaker : ∀ {enabled registerB selected}, point.fact enabled registerB selected →
      fact enabled registerB selected) :
    Point.Holds { point with fact := fact } seen devices :=
  { holds with fact := weaker holds.fact }

/-- The flag of `rtc_read` is not one of the registers. -/
theorem setNextInterrupt (holds : point.Holds seen devices) (value : Bool) :
    point.Holds seen (performAccess devices (.setNextInterrupt value)).2 :=
  { holds with }

/-- The ports of the timer are not those of the clock. -/
theorem otherPort (holds : point.Holds seen devices) (value : UInt8) {port : UInt16}
    (index : port ≠ 0x70) (data : port ≠ 0x71) :
    point.Holds seen (performAccess devices (.outb value port)).2 := by
  rw [performAccess, if_neg index, if_neg data]
  exact holds

theorem good {registerA : UInt8} (holds : (Point.between registerA).Holds seen devices) :
    driversContract.good seen devices := by
  have same : seen.registerA = registerA := holds.aim
  rw [← same] at holds
  exact holds

end Point.Holds

/-! ## The code is safe -/

section Safety

variable {seen : Observed} {devices : Devices}

/-- The code leads back to where interrupts may be let in. -/
abbrev SafeCode (code : DriverCode) (seen : Observed) (devices : Devices) : Prop :=
  driversContract.Safe drivers code seen devices

theorem safe_access {point : Point} (reached : Point) {access : Access} {next : DriverCode}
    (performed : ∀ {seen devices}, point.Holds seen devices →
      reached.Holds seen (performAccess devices access).2)
    (rest : ∀ {seen devices}, reached.Holds seen devices → SafeCode next seen devices)
    (holds : point.Holds seen devices) : SafeCode (Interrupt.access access next) seen devices :=
  Contract.safe_perform (fun _ => reached.Holds) point.stable performed (fun _ => rest) holds

theorem safe_readA (point : Point) {next : UInt8 → DriverCode}
    (selected : ∀ {enabled registerB before}, point.fact enabled registerB before →
      before = 0x8A)
    (rest : ∀ prev {seen devices}, (prev = point.registerA ∨ prev = point.registerA ||| 0x80) →
      point.Holds seen devices → SafeCode (next prev) seen devices)
    (holds : point.Holds seen devices) :
    SafeCode (.perform (.inb 0x71) next) seen devices :=
  Contract.safe_perform
    (fun prev seen devices =>
      (prev = point.registerA ∨ prev = point.registerA ||| 0x80) ∧ point.Holds seen devices)
    point.stable (fun holds => holds.readA selected)
    (fun prev _ _ both => rest prev both.1 both.2) holds

theorem safe_readB (point : Point) {next : UInt8 → DriverCode}
    (selected : ∀ {enabled registerB before}, point.fact enabled registerB before →
      before = 0x8B)
    (rest : ∀ prev {seen devices}, point.Holds seen devices → SafeCode (next prev) seen devices)
    (holds : point.Holds seen devices) :
    SafeCode (.perform (.inb 0x71) next) seen devices :=
  Contract.safe_perform (fun _ => point.Holds) point.stable (fun holds => holds.readB selected)
    rest holds

theorem periodic (registerB : UInt8) : (registerB ||| 0x40) &&& 0x40 ≠ 0 := by
  intro clear
  have bits := UInt8.toBitVec_inj.mpr clear
  have bit := congrArg (fun word => word.getLsbD 6) bits
  simp at bit

/-- The bit that the clock sets on its own does not get into the register. -/
theorem masked_or (registerA rate : UInt8) :
    ((registerA ||| 0x80) &&& 0xF0 ||| rate) &&& 0x7F = (registerA &&& 0xF0 ||| rate) &&& 0x7F := by
  apply UInt8.toBitVec_inj.mp
  simp [BitVec.and_or_distrib_right, BitVec.and_assoc]

theorem setFreq_masked {registerA prev : UInt8}
    (isRead : prev = registerA ∨ prev = registerA ||| 0x80) (freq : Int) :
    setFreq prev freq &&& 0x7F = programmed registerA freq := by
  rcases isRead with rfl | rfl
  · rfl
  · exact masked_or registerA _

/-- A register is selected, and the lines stay on. -/
def onSelected (index : UInt8) (enabled : Nat → Bool) (registerB selected : UInt8) : Prop :=
  isOn enabled registerB selected ∧ selected = index

/-- Between the drivers, but with a frequency still to be set. -/
def Point.toSet (registerA aim : UInt8) : Point :=
  { Point.between registerA with aim := aim }

/-- With a register selected for it. -/
def Point.selecting (registerA aim index : UInt8) : Point :=
  { Point.toSet registerA aim with fact := onSelected index }

/-- `set_freq` does what it is asked for. -/
theorem safe_setFreqCode {registerA : UInt8} {freq : Int} {next : DriverCode}
    (rest : ∀ {seen devices}, (Point.between (programmed registerA freq)).Holds seen devices →
      SafeCode next seen devices) :
    (Point.toSet registerA (programmed registerA freq)).Holds seen devices →
      SafeCode (setFreqCode freq next) seen devices := by
  refine safe_access (Point.selecting registerA (programmed registerA freq) 0x8A)
    (fun holds => holds.select 0x0A fun on => ⟨on, rfl⟩) ?_
  refine safe_readA _ (fun fact => fact.2) ?_
  intro prev seen devices isRead
  refine safe_access (Point.selecting registerA (programmed registerA freq) 0x8A)
    (fun holds => holds.select 0x0A fun fact => ⟨fact.1, rfl⟩) ?_
  refine safe_access
    (Point.selecting (programmed registerA freq) (programmed registerA freq) 0x8A)
    (fun holds => holds.writeA (setFreq_masked isRead freq) fun fact => fact.2) ?_
  intro seen devices holds
  exact rest (holds.weaken fun fact => fact.1)

theorem safe_rtcInterruptHandler {registerA : UInt8} :
    Point.Holds { Point.between registerA with serving := some 8, clockArmed := false }
      seen devices → SafeCode rtcInterruptHandler seen devices := by
  refine safe_access { Point.between registerA with serving := some 8, clockArmed := false }
    (fun holds => holds.setNextInterrupt true) ?_
  refine safe_access
    { Point.selecting registerA registerA 0x8C with serving := some 8, clockArmed := false }
    (fun holds => holds.select 0x0C fun on => ⟨on, rfl⟩) ?_
  refine safe_access { Point.selecting registerA registerA 0x8C with serving := some 8 }
    (fun holds => holds.readC fun fact => fact.2) ?_
  refine safe_access (Point.selecting registerA registerA 0x8C)
    (fun holds => holds.sendEoi (by decide) rfl) ?_
  intro seen devices holds
  have between : (Point.between registerA).Holds seen devices := holds.weaken fun fact => fact.1
  exact ⟨between.good, trivial⟩

theorem safe_keyboardInterruptHandler {registerA : UInt8} :
    Point.Holds { Point.keyboardLoop registerA with serving := some 1 } seen devices →
      SafeCode keyboardInterruptHandler seen devices := by
  refine safe_access (Point.keyboardLoop registerA)
    (fun holds => holds.sendEoi (by decide) rfl) ?_
  intro seen devices holds
  have same : seen.registerA = registerA := holds.aim
  rw [← same] at holds
  exact holds

theorem safe_pitHandler {registerA : UInt8} :
    Point.Holds { Point.between registerA with serving := some 0 } seen devices →
      SafeCode pitHandler seen devices := by
  refine safe_access (Point.between registerA)
    (fun holds => holds.sendEoi (by decide) rfl) ?_
  intro seen devices holds
  exact ⟨holds.good, fun seen shared good => ⟨good, trivial⟩⟩

theorem safe_takeKey (point : Point) {next : UInt8 → DriverCode} (present : point.present = true)
    (held : point.held = [])
    (rest : ∀ key {seen devices},
      Point.Holds { point with keysArmed := true, present := false, held := [key] } seen devices →
      SafeCode (next key) seen devices)
    (holds : point.Holds seen devices) :
    SafeCode (.perform (.inb 0x60) next) seen devices :=
  Contract.safe_perform
    (fun key => Point.Holds { point with keysArmed := true, present := false, held := [key] })
    point.stable (fun holds => holds.takeKey present held) rest holds

theorem safe_keyboardLoop {registerA : UInt8} :
    (Point.keyboardLoop registerA).Holds seen devices →
      SafeCode (loopBody .keyboardLoop) seen devices := by
  refine Contract.safe_perform
    (fun status seen devices =>
      (0 < status &&& 1 ∧
        Point.Holds { Point.keyboardLoop registerA with present := true } seen devices) ∨
      (¬ 0 < status &&& 1 ∧ (Point.between registerA).Holds seen devices))
    (Point.keyboardLoop registerA).stable (fun holds => holds.status) ?_
  intro status seen devices polled
  rcases polled with ⟨full, holds⟩ | ⟨empty, holds⟩
  · rw [if_pos full]
    refine safe_takeKey { Point.keyboardLoop registerA with present := true } rfl rfl ?_ holds
    intro key
    refine safe_access (Point.between registerA) (fun holds => holds.scancodeProcessing rfl) ?_
    intro seen devices holds
    refine ⟨holds.good, ?_⟩
    intro seen devices good
    exact { good with keyboard := fun wrong => Bool.noConfusion wrong }
  · rw [if_neg empty]
    exact ⟨holds.good, trivial⟩

theorem safe_toggles (flags : List Bool) :
    driversContract.Open drivers (toggles flags) ∧
      ∀ seen devices, driversContract.good seen devices →
        SafeCode (toggles flags) seen devices := by
  induction flags with
  | nil => exact ⟨trivial, fun _ _ good => good⟩
  | cons flag rest ih =>
      rcases ih with ⟨isOpen, safe⟩
      cases flag with
      | true => exact ⟨isOpen, fun seen devices good => ⟨good, isOpen⟩⟩
      | false => exact ⟨safe, safe⟩

theorem safe_yielding (yields : Nat) {next : DriverCode}
    (safe : ∀ seen devices, driversContract.good seen devices → SafeCode next seen devices)
    (good : driversContract.good seen devices) :
    SafeCode (yielding yields next) seen devices := by
  induction yields generalizing seen devices with
  | zero => exact safe seen devices good
  | succ yields ih => exact ⟨good, fun seen devices good => ih good⟩

theorem safe_requestCode (request : DriverRequest) (good : driversContract.good seen devices) :
    SafeCode (requestCode request) (noteRequest seen request) devices := by
  have open_done : ∀ {registerA : UInt8} {seen devices},
      (Point.between registerA).Holds seen devices → SafeCode (.sti .done) seen devices :=
    fun holds => ⟨holds.good, trivial⟩
  have between : (Point.between seen.registerA).Holds seen devices := good
  cases request with
  | rtcOpen => exact safe_setFreqCode open_done { between with aim := rfl }
  | rtcWrite freq size =>
      simp only [requestCode, noteRequest]
      cases acceptedFreq freq size with
      | none => exact open_done between
      | some freq => exact safe_setFreqCode open_done { between with aim := rfl }
  | rtcRead => exact ⟨good, rfl⟩
  | other yields flags => exact safe_yielding yields (safe_toggles flags).2 good

theorem update_on {irqNum line : Nat} {enabled : Nat → Bool}
    (here : line = irqNum ∨ enabled line = true) :
    Function.update enabled irqNum true line = true := by
  rw [Function.update_apply]
  split
  · rfl
  · rename_i other
    exact here.resolve_left other

theorem isOn_update {irqNum : Nat} {enabled : Nat → Bool} {registerB selected : UInt8}
    (on : isOn enabled registerB selected) :
    isOn (Function.update enabled irqNum true) registerB selected :=
  ⟨update_on (Or.inr on.1), update_on (Or.inr on.2.1), on.2.2⟩

theorem safe_pitInit {registerA : UInt8} :
    (Point.between registerA).Holds seen devices →
      SafeCode (pitInit (.sti .done)) seen devices := by
  refine safe_access (Point.between registerA)
    (fun holds => holds.otherPort 0x36 (by decide) (by decide)) ?_
  refine safe_access (Point.between registerA)
    (fun holds => holds.otherPort 0x5C (by decide) (by decide)) ?_
  refine safe_access (Point.between registerA)
    (fun holds => holds.otherPort 0x9B (by decide) (by decide)) ?_
  refine safe_access (Point.between registerA)
    (fun holds => holds.enableIrq (by decide) isOn_update) ?_
  intro seen devices holds
  exact ⟨holds.good, trivial⟩

/-- A register is selected while the keyboard is enabled. -/
def keyboardOn (index : UInt8) (enabled : Nat → Bool) (_ selected : UInt8) : Prop :=
  enabled 1 = true ∧ selected = index

/-- A point of the initialisations. -/
def Point.booting (registerA : UInt8) (fact : (Nat → Bool) → UInt8 → UInt8 → Prop) : Point :=
  { Point.toSet registerA 0x26 with fact := fact }

/-- The initialisations, from a clock that does not ask for an interrupt and a
keyboard that holds no scancode. -/
theorem safe_bootCode {registerA : UInt8} :
    (Point.booting registerA fun _ _ _ => True).Holds seen devices →
      SafeCode bootCode seen devices := by
  refine safe_access (Point.booting registerA fun enabled _ _ => enabled 1 = true)
    (fun holds => holds.enableIrq (by decide) fun _ => update_on (Or.inl rfl)) ?_
  refine safe_access (Point.booting registerA fun enabled _ _ => enabled 1 = true)
    (fun holds => holds.setNextInterrupt false) ?_
  refine safe_access (Point.booting registerA (keyboardOn 0x8A))
    (fun holds => holds.select 0x0A fun on => ⟨on, rfl⟩) ?_
  refine safe_access (Point.booting 0x20 (keyboardOn 0x8A))
    (fun holds => holds.writeA (by decide) fun fact => fact.2) ?_
  refine safe_access (Point.booting 0x20 (keyboardOn 0x8A))
    (fun holds => holds.select 0x0A fun fact => ⟨fact.1, rfl⟩) ?_
  refine safe_readA _ (fun fact => fact.2) ?_
  intro prev seen devices isRead
  refine safe_access (Point.booting 0x20 (keyboardOn 0x8A))
    (fun holds => holds.select 0x0A fun fact => ⟨fact.1, rfl⟩) ?_
  have written : ((prev &&& 0xF0) ||| 0x06) &&& 0x7F = 0x26 := by
    rcases isRead with rfl | rfl <;> decide
  intro seen devices
  refine safe_access (Point.booting 0x26 (keyboardOn 0x8A))
    (fun holds => holds.writeA written fun fact => fact.2) ?_
  refine safe_access (Point.booting 0x26 (keyboardOn 0x8B))
    (fun holds => holds.select 0x0B fun fact => ⟨fact.1, rfl⟩) ?_
  refine safe_readB _ (fun fact => fact.2) ?_
  intro prev
  refine safe_access (Point.booting 0x26 (keyboardOn 0x8B))
    (fun holds => holds.select 0x0B fun fact => ⟨fact.1, rfl⟩) ?_
  refine safe_access
    (Point.booting 0x26 fun enabled registerB _ => enabled 1 = true ∧ registerB &&& 0x40 ≠ 0)
    (fun holds => holds.writeB (prev ||| 0x40) rfl (fun fact => fact.2)
      fun fact => ⟨fact.1, periodic prev⟩) ?_
  refine safe_access (Point.between 0x26)
    (fun holds => holds.enableIrq (by decide) fun fact =>
      ⟨update_on (Or.inr fact.1), update_on (Or.inl rfl), fact.2⟩) ?_
  intro seen devices holds
  refine ⟨holds.good, ?_⟩
  intro seen devices good
  exact safe_pitInit good

/-- An interrupt is taken: only what its handler will see to is no longer sure. -/
theorem holds_acknowledged {registerA : UInt8}
    (holds : (Point.between registerA).Holds seen devices) {line : Nat} (member : line ∈ handled) :
    Point.Holds
      { Point.between registerA with
        serving := some line
        clockArmed := decide (line ≠ 8)
        keysArmed := decide (line ≠ 1) } seen
      { devices with controllers := devices.controllers.acknowledged line } := by
  have flagged := holds.inv.sti rfl
  have quiet := Controllers.requested_acknowledged holds.inv.quiet line
  have still : ∀ {other}, other ≠ line → devices.controllers.requested other = true →
      (devices.controllers.acknowledged line).requested other = true := by
    intro other apart requested
    rw [quiet, Function.update_of_ne apart]
    exact requested
  exact
    { inv := flagged.afterTake rfl member
      clock := fun armed isUp =>
        still (of_decide_eq_true armed).symm (holds.clock rfl isUp)
      keyboard := fun armed present =>
        still (of_decide_eq_true armed).symm (holds.keyboard rfl present)
      present := fun wrong => Bool.noConfusion wrong
      text := holds.text
      registerA := holds.registerA
      aim := holds.aim
      fact := by
        have on : isOn devices.controllers.enabled devices.rtc.registerB devices.rtc.selected :=
          holds.fact
        rw [← Controllers.enabled_acknowledged line] at on
        exact on }

theorem deliverInterrupt_eq {registerA : UInt8}
    (holds : (Point.between registerA).Holds seen devices) :
    deliverInterrupt devices =
      ((priorities.find? fun line =>
        devices.controllers.requested line && devices.controllers.enabled line).bind fun line =>
          (handlerCode (installed (picOffset + line))).map fun handler =>
            (handler, { devices with controllers := devices.controllers.acknowledged line })) := by
  have taken := Controllers.take_of_idle holds.inv.ready holds.inv.cascade (holds.inv.idle rfl)
  rw [deliverInterrupt, taken]
  cases found : priorities.find? fun line =>
      devices.controllers.requested line && devices.controllers.enabled line with
  | none => rfl
  | some line =>
      have member := holds.inv.found found
      simp only [Option.map_some, Controllers.taken, (endedBy_installed member).1,
        Option.bind_some]

theorem safe_handler (good : driversContract.good seen devices) {handler : DriverCode}
    {after : Devices} (delivered : deliverInterrupt devices = some (handler, after)) :
    SafeCode handler seen after := by
  have holds : (Point.between seen.registerA).Holds seen devices := good
  rw [deliverInterrupt_eq holds, Option.bind_eq_some_iff] at delivered
  rcases delivered with ⟨line, found, outcome⟩
  have member := holds.inv.found found
  have acknowledged := holds_acknowledged holds member
  simp only [handled, List.mem_cons, List.not_mem_nil, or_false] at member
  rcases member with rfl | rfl | rfl
  · rcases Option.some.inj outcome with ⟨rfl, rfl⟩
    exact safe_pitHandler acknowledged
  · rcases Option.some.inj outcome with ⟨rfl, rfl⟩
    exact safe_keyboardInterruptHandler acknowledged
  · rcases Option.some.inj outcome with ⟨rfl, rfl⟩
    exact safe_rtcInterruptHandler acknowledged

/-- The loop of `rtc_read` only touches its flag. -/
theorem safe_rtcReadLoop {registerA : UInt8} :
    (Point.between registerA).Holds seen devices →
      SafeCode (loopBody .rtcReadLoop) seen devices := by
  refine Contract.safe_perform (fun _ => (Point.between registerA).Holds)
    (Point.between registerA).stable (fun holds => holds) ?_
  intro nextInterrupt seen devices holds
  split
  · exact holds.good
  · exact safe_access (Point.between registerA) (fun holds => holds.setNextInterrupt false)
      (fun holds => holds.good) holds

/-- The drivers keep their contract. -/
theorem drivers_verified : driversContract.Verified drivers where
  device := fun good moved => Point.stable _ good moved
  deviceLabel := by
    intro label seen devices event after holds moved
    cases label with
    | keyboardLoop => exact Point.stable (Point.keyboardLoop seen.registerA) holds moved
    | rtcReadLoop => exact Point.stable (Point.between seen.registerA) holds moved
  body := by
    intro label seen devices holds
    cases label with
    | keyboardLoop => exact safe_keyboardLoop holds
    | rtcReadLoop => exact safe_rtcReadLoop holds
  bodyOpen := by
    intro label isLoop
    rcases isLoop with rfl
    intro seen devices good
    refine ⟨good, ?_⟩
    dsimp only
    split
    · exact rfl
    · intro seen devices good
      exact ⟨Point.Holds.setNextInterrupt good false, trivial⟩
  deliver := fun good delivered => safe_handler good delivered
  entry := safe_requestCode

end Safety

/-! ## Runs -/

section Runs

universe u

variable {ι : Type u} [DecidableEq ι]

/-- The events of the machine. -/
abbrev DriverEvent (ι : Type u) := Event ι DriverRequest DeviceEvent

/-- The drivers at work. -/
abbrev DriverMachine (ι : Type u) := PonyOS.Lib.Critical.Machine ι Devices Access UInt8 DriverLabel

/-- Behind `i8259_init`: one thread initialises the drivers, and the others have
not started.  The keyboard controller may hold scancodes from before. -/
def bootMachine (thread : ι) (controllers : Controllers) (rtc : Rtc) (keys : List UInt8) :
    DriverMachine ι :=
  { shared :=
      { controllers := controllers.i8259Init
        rtc := rtc
        nextInterrupt := false
        keys := keys
        processed := [] }
    interruptFlag := false
    current := thread
    threads := fun other => if other = thread then [bootCode] else [.done] }

/-- The frequencies that requests hand to `set_freq`. -/
def requestedFreqs (trace : List (DriverEvent ι × Unit)) : List Int :=
  trace.filterMap fun step =>
    match step.1 with
    | .call .rtcOpen => some 2
    | .call (.rtcWrite freq size) => acceptedFreq freq size
    | _ => none

/-- The scancodes that the keyboard sent. -/
def arrivals (trace : List (DriverEvent ι × Unit)) : List UInt8 :=
  trace.filterMap fun step =>
    match step.1 with
    | .device (.press scancode) => some scancode
    | _ => none

omit [DecidableEq ι] in
/-- What is observed is what the trace shows. -/
theorem observed_eq (seen : Observed) (trace : List (DriverEvent ι × Unit)) :
    observed driversContract.observe seen trace =
      { registerA := (requestedFreqs trace).foldl programmed seen.registerA
        arrived := seen.arrived ++ arrivals trace } := by
  induction trace generalizing seen with
  | nil => simp [observed, requestedFreqs, arrivals]
  | cons step rest ih =>
      have next : observed driversContract.observe seen (step :: rest) =
          observed driversContract.observe (driversContract.observe seen step.1 step.2) rest := rfl
      rw [next, ih]
      rcases step with ⟨event, reply⟩
      cases event with
      | step => rfl
      | switch thread => rfl
      | interrupt => rfl
      | call request =>
          cases request with
          | rtcOpen => rfl
          | rtcWrite freq size =>
              have noted :
                  driversContract.observe seen (.call (.rtcWrite freq size) : DriverEvent ι) reply =
                    noteRequest seen (.rtcWrite freq size) := rfl
              rw [noted, noteRequest]
              cases accepted : acceptedFreq freq size with
              | none => simp [requestedFreqs, arrivals, accepted]
              | some freq => simp [requestedFreqs, arrivals, accepted]
          | rtcRead => rfl
          | other yields flags => rfl
      | device event =>
          have noted : driversContract.observe seen (.device event : DriverEvent ι) reply =
              noteDevice seen event := rfl
          rw [noted, noteDevice]
          cases event with
          | press scancode => simp [requestedFreqs, arrivals, Devices.pressed]
          | tick conditions => simp [requestedFreqs, arrivals, Devices.pressed]
          | update inProgress => simp [requestedFreqs, arrivals, Devices.pressed]
          | raise irqNum => simp [requestedFreqs, arrivals, Devices.pressed]

/-- The initialisations are sound, from devices that ask for nothing: a line that
is up already, or a scancode that is held already, would make no new edge. -/
theorem sound_boot (thread : ι) (controllers : Controllers) {rtc : Rtc}
    (silent : rtc.line = false) :
    driversContract.Sound drivers { registerA := 0x26, arrived := [] }
      (bootMachine thread controllers rtc []) := by
  have holds : (Point.booting rtc.registerA fun _ _ _ => True).Holds
      { registerA := 0x26, arrived := [] } (bootMachine thread controllers rtc []).shared :=
    { inv := Interrupts.boot_inv controllers
      clock := fun _ isUp => absurd (silent.symm.trans isUp) Bool.false_ne_true
      keyboard := fun _ present => absurd rfl present
      present := fun wrong => Bool.noConfusion wrong
      text := rfl
      registerA := rfl
      aim := rfl
      fact := trivial }
  have atHand : (bootMachine thread controllers rtc []).stack = [bootCode] := if_pos rfl
  constructor
  · rw [atHand]
    exact ⟨safe_bootCode holds, fun lower member => absurd member List.not_mem_nil⟩
  · intro other apart
    have waiting : (bootMachine thread controllers rtc []).threads other = [.done] := if_neg apart
    rw [waiting]
    exact ⟨fun _ _ good => good, fun lower member => absurd member List.not_mem_nil⟩

/-- Whenever interrupts are let in, the devices are as the trace says. -/
theorem drivers_good {thread : ι} {controllers : Controllers} {rtc : Rtc} {keys : List UInt8}
    (silent : rtc.line = false) (drained : keys = []) {trace : List (DriverEvent ι × Unit)}
    {machine : DriverMachine ι}
    (run : Run drivers.next (bootMachine thread controllers rtc keys) trace machine)
    (flag : machine.interruptFlag = true) :
    (Point.between ((requestedFreqs trace).foldl programmed 0x26)).Holds
      { registerA := (requestedFreqs trace).foldl programmed 0x26, arrived := arrivals trace }
      machine.shared := by
  subst drained
  have sound := drivers_verified.run run (sound_boot thread controllers silent)
  rw [observed_eq] at sound
  exact sound.good flag

/-- A request that is pending on a line of a driver can be taken. -/
theorem interrupt_ready {registerA : UInt8} {seen : Observed}
    {machine : DriverMachine ι}
    (holds : (Point.between registerA).Holds seen machine.shared)
    (flag : machine.interruptFlag = true) {irqNum : Nat} (member : irqNum ∈ handled)
    (requested : machine.shared.controllers.requested irqNum = true)
    (enabled : machine.shared.controllers.enabled irqNum = true) :
    (drivers.next machine .interrupt).isSome = true := by
  have listed : ∀ line ∈ handled, line ∈ priorities := by decide
  have delivers : ∀ line ∈ handled, (handlerCode (installed (picOffset + line))).isSome = true := by
    decide
  have delivered : (drivers.deliver machine.shared).isSome = true := by
    have equation : drivers.deliver machine.shared = deliverInterrupt machine.shared := rfl
    rw [equation, deliverInterrupt_eq holds]
    cases found : priorities.find? fun line =>
        machine.shared.controllers.requested line && machine.shared.controllers.enabled line with
    | none =>
        have absent := List.find?_eq_none.mp found irqNum (listed irqNum member)
        rw [requested, enabled] at absent
        exact absurd rfl absent
    | some line => simpa using delivers line (holds.inv.found found)
  simpa [System.next, flag] using delivered

/-- A periodic condition can come up exactly at a rate. -/
theorem tick_isSome_iff (machine : DriverMachine ι) {conditions : UInt8}
    (isPeriodic : conditions &&& 0x40 ≠ 0) :
    (drivers.next machine (.device (.tick conditions))).isSome = true ↔
      machine.shared.rtc.registerA &&& 0x0F ≠ 0 := by
  rw [System.next, Option.isSome_map]
  change (deviceStep machine.shared (.tick conditions)).isSome = true ↔ _
  rw [deviceStep, Rtc.ticking]
  by_cases stopped : machine.shared.rtc.registerA &&& 0x0F = 0
  · simp [isPeriodic, stopped]
  · simp [stopped]

/-- From the initialisations on, of a clock that does not ask for an interrupt and
of a keyboard that holds no scancode, in every interleaving of the drivers, their
handlers, the devices and the threads: register A of the clock is what the
accepted requests make of it, in the order of their calls, the periodic interrupt
stays enabled and can come up exactly at a rate other than zero, and if the clock
asks for an interrupt then one can be taken. -/
theorem clock_keeps_rate {thread : ι} {controllers : Controllers} {rtc : Rtc}
    {keys : List UInt8} (silent : rtc.line = false) (drained : keys = [])
    {trace : List (DriverEvent ι × Unit)} {machine : DriverMachine ι}
    (run : Run drivers.next (bootMachine thread controllers rtc keys) trace machine)
    (flag : machine.interruptFlag = true) :
    machine.shared.rtc.registerA = (requestedFreqs trace).foldl programmed 0x26 ∧
      machine.shared.rtc.registerB &&& 0x40 ≠ 0 ∧
      (∀ conditions : UInt8, conditions &&& 0x40 ≠ 0 →
        ((drivers.next machine (.device (.tick conditions))).isSome = true ↔
          (requestedFreqs trace).foldl programmed 0x26 &&& 0x0F ≠ 0)) ∧
      (machine.shared.rtc.line = true → machine.shared.controllers.requested 8 = true ∧
        (drivers.next machine .interrupt).isSome = true) := by
  have holds := drivers_good silent drained run flag
  have registerA : machine.shared.rtc.registerA =
      (requestedFreqs trace).foldl programmed 0x26 := holds.registerA
  refine ⟨registerA, holds.fact.2.2, ?_, ?_⟩
  · intro conditions isPeriodic
    rw [tick_isSome_iff machine isPeriodic, registerA]
  · intro isUp
    have requested := holds.clock rfl isUp
    exact ⟨requested, interrupt_ready holds flag (by decide) requested holds.fact.2.1⟩

/-- A clock with a condition that has come up, but none that is enabled. -/
def strayRtc : Rtc :=
  { selected := 0, registerA := 0x15, registerB := 0x02, registerC := 0x40,
    updateInProgress := true }

/-- The initialisations, and then a request for 512 Hz that a tick falls into. -/
def tickInRequest : List (DriverEvent Nat) :=
  List.replicate 23 .step ++ [.call (.rtcWrite (some 512) 4), .step, .step, .step,
    .device (.tick 0x40), .device (.update true), .step, .step, .step, .step]

theorem clock_keeps_rate_512 :
    ∃ machine : DriverMachine Nat,
      Run drivers.next (bootMachine 0 Controllers.strayControllers strayRtc [])
        (tickInRequest.map fun event => (event, ())) machine ∧
      machine.shared.rtc.registerA = 0x27 := by
  have flags : (drivers.follow tickInRequest
      (bootMachine 0 Controllers.strayControllers strayRtc [])).map (fun machine =>
        machine.interruptFlag) = some true := by
    decide +kernel
  rcases Option.map_eq_some_iff.mp flags with ⟨machine, followed, flag⟩
  have run := System.run_of_follow followed
  exact ⟨machine, run, (clock_keeps_rate rfl rfl run flag).1⟩

/-- In every such interleaving the scancodes that were processed are those that
came, in order, up to the ones that the keyboard controller still holds; and while
it holds one, an interrupt can be taken. -/
theorem keys_processed_once {thread : ι} {controllers : Controllers} {rtc : Rtc}
    {keys : List UInt8} (silent : rtc.line = false) (drained : keys = [])
    {trace : List (DriverEvent ι × Unit)} {machine : DriverMachine ι}
    (run : Run drivers.next (bootMachine thread controllers rtc keys) trace machine)
    (flag : machine.interruptFlag = true) :
    machine.shared.processed ++ machine.shared.keys = arrivals trace ∧
      (machine.shared.keys ≠ [] → machine.shared.controllers.requested 1 = true ∧
        (drivers.next machine .interrupt).isSome = true) := by
  have holds := drivers_good silent drained run flag
  have text := holds.text
  rw [show (Point.between _).held = [] from rfl, List.append_nil] at text
  refine ⟨text, ?_⟩
  intro present
  have requested := holds.keyboard rfl present
  exact ⟨requested, interrupt_ready holds flag (by decide) requested holds.fact.1⟩

/-- Two scancodes before the interrupt of the keyboard, and one more while its
handler is at work. -/
def threeScancodes : List (DriverEvent Nat) :=
  List.replicate 15 .step ++ [.device (.press 0x1E), .device (.press 0x9E), .interrupt] ++
    List.replicate 6 .step ++ [.device (.press 0x30)] ++ List.replicate 14 .step

theorem keys_processed_once_three :
    ∃ machine : DriverMachine Nat,
      Run drivers.next (bootMachine 0 Controllers.strayControllers strayRtc [])
        (threeScancodes.map fun event => (event, ())) machine ∧
      machine.shared.processed ++ machine.shared.keys = [0x1E, 0x9E, 0x30] := by
  have flags : (drivers.follow threeScancodes
      (bootMachine 0 Controllers.strayControllers strayRtc [])).map (fun machine =>
        machine.interruptFlag) = some true := by
    decide +kernel
  rcases Option.map_eq_some_iff.mp flags with ⟨machine, followed, flag⟩
  have run := System.run_of_follow followed
  exact ⟨machine, run, (keys_processed_once rfl rfl run flag).1⟩

end Runs

end PonyOS.Interrupt
