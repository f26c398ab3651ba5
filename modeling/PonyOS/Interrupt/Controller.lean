import PonyOS.Lib.Mask
import PonyOS.Lib.Transition
import PonyOS.Interrupt.Vectors

/-!
# The interrupt controllers

Two 8259 chips, the second behind line 2 of the first.  A chip takes its
initialisation words in order after the first of them came to its command port;
otherwise its data port is the mask, and its command port takes the
end-of-interrupt of a line.

The driver keeps a copy of each mask in a global.  Whatever calls are made after
the initialisation, the masks are those of the set of lines enabled last, and the
copies agree with the chips.
-/

namespace PonyOS.Interrupt

open PonyOS.Lib.Mask
open PonyOS.Lib.Transition
open BitVec (twoPow)

/-! ## One chip -/

/-- The initialisation word that a chip waits for on its data port. -/
inductive Awaits
  | nothing
  | icw2
  | icw3
  | icw4
  deriving DecidableEq

/-- The registers of a chip: mask, requests and lines in service. -/
structure Chip where
  awaits : Awaits
  /-- Whether the first word announced a fourth. -/
  fourth : Bool
  base : BitVec 8
  cascade : BitVec 8
  imr : BitVec 8
  irr : BitVec 8
  isr : BitVec 8
  deriving DecidableEq

namespace Chip

/-- A byte on the command port: the first initialisation word, or the specific
end of interrupt.  The other commands are not used. -/
def command (chip : Chip) (value : BitVec 8) : Chip :=
  if value.getLsbD 4 then
    { chip with awaits := .icw2, fourth := value.getLsbD 0, imr := 0, irr := 0, isr := 0 }
  else if value &&& 0xF8 = 0x60 then
    { chip with isr := chip.isr &&& ~~~ twoPow 8 (value &&& 7).toNat }
  else chip

/-- A byte on the data port. -/
def data (chip : Chip) (value : BitVec 8) : Chip :=
  match chip.awaits with
  | .nothing => { chip with imr := value }
  | .icw2 => { chip with base := value &&& 0xF8, awaits := .icw3 }
  | .icw3 => { chip with cascade := value, awaits := if chip.fourth then .icw4 else .nothing }
  | .icw4 => { chip with awaits := .nothing }

/-- A line is in service, or one of higher priority is. -/
def blocked (chip : Chip) (line : Nat) : Bool :=
  (List.range (line + 1)).any fun other => chip.isr.getLsbD other

/-- The line that a chip presents: the first one that is requested and not
masked, unless it is blocked. -/
def presents (chip : Chip) (requested : Nat → Bool) : Option Nat :=
  ((List.range 8).find? fun line => requested line && !chip.imr.getLsbD line).filter
    fun line => !chip.blocked line

/-- The processor acknowledges a line. -/
def acknowledge (chip : Chip) (line : Nat) : Chip :=
  { chip with
    irr := chip.irr &&& ~~~ twoPow 8 line
    isr := chip.isr ||| twoPow 8 line }

end Chip

/-! ## Both chips and the driver -/

/-- The chips, and the globals of the driver. -/
structure Controllers where
  master : Chip
  slave : Chip
  masterMask : BitVec 8
  slaveMask : BitVec 8
  deriving DecidableEq

/-- The ports of the chips. -/
inductive Port
  | master8259Port
  | master8259Data
  | slave8259Port
  | slave8259Data
  deriving DecidableEq

/-- The numbers of the ports. -/
def Port.number : Port → Nat
  | .master8259Port => 0x20
  | .master8259Data => 0x21
  | .slave8259Port => 0xA0
  | .slave8259Data => 0xA1

namespace Controllers

/-- `outb`. -/
def outb (value : BitVec 8) (port : Port) (controllers : Controllers) : Controllers :=
  match port with
  | .master8259Port => { controllers with master := controllers.master.command value }
  | .master8259Data => { controllers with master := controllers.master.data value }
  | .slave8259Port => { controllers with slave := controllers.slave.command value }
  | .slave8259Data => { controllers with slave := controllers.slave.data value }

/-- The two reads that end every function of the driver. -/
def readMasks (controllers : Controllers) : Controllers :=
  { controllers with
    masterMask := controllers.master.imr
    slaveMask := controllers.slave.imr }

/-- `i8259_init`. -/
def i8259Init (controllers : Controllers) : Controllers :=
  let controllers := controllers.outb 0x11 .master8259Port
  let controllers := controllers.outb 0x11 .slave8259Port
  let controllers := controllers.outb 0x20 .master8259Data
  let controllers := controllers.outb 0x28 .slave8259Data
  let controllers := controllers.outb 0x04 .master8259Data
  let controllers := controllers.outb 0x02 .slave8259Data
  let controllers := controllers.outb 0x01 .master8259Data
  let controllers := controllers.outb 0x01 .slave8259Data
  let controllers := controllers.outb 0xfb .master8259Data
  let controllers := controllers.outb 0xff .slave8259Data
  controllers.readMasks

/-- `1<<irq_num`, an `int`; the processor takes the count modulo 32. -/
def testDigit (irqNum : Nat) : BitVec 32 :=
  twoPow 32 (irqNum % 32)

/-- `enable_irq`. -/
def enableIrq (controllers : Controllers) (irqNum : Nat) : Controllers :=
  if irqNum < 8 then
    let masterMask := clearDigit controllers.master.imr (testDigit irqNum)
    ({ controllers with masterMask := masterMask }.outb masterMask .master8259Data).readMasks
  else
    let slaveMask := clearDigit controllers.slave.imr (testDigit (irqNum - 8))
    ({ controllers with slaveMask := slaveMask }.outb slaveMask .slave8259Data).readMasks

/-- `disable_irq`. -/
def disableIrq (controllers : Controllers) (irqNum : Nat) : Controllers :=
  if irqNum < 8 then
    let masterMask := setDigit controllers.master.imr (testDigit irqNum)
    ({ controllers with masterMask := masterMask }.outb masterMask .master8259Data).readMasks
  else
    let slaveMask := setDigit controllers.slave.imr (testDigit (irqNum - 8))
    ({ controllers with slaveMask := slaveMask }.outb slaveMask .slave8259Data).readMasks

/-- `EOI|irq_num`, as the byte that is put out. -/
def eoiByte (irqNum : Nat) : BitVec 8 :=
  0x60 ||| BitVec.ofNat 8 irqNum

/-- `send_eoi`. -/
def sendEoi (controllers : Controllers) (irqNum : Nat) : Controllers :=
  if irqNum < 8 then controllers.outb (eoiByte irqNum) .master8259Port
  else
    (controllers.outb (eoiByte (irqNum - 8)) .slave8259Port).outb (eoiByte 2) .master8259Port

/-! ## Masks -/

/-- Both chips are initialised, and the driver knows their masks. -/
structure Ready (controllers : Controllers) : Prop where
  master : controllers.master.awaits = .nothing
  slave : controllers.slave.awaits = .nothing
  masterBase : controllers.master.base = 0x20
  slaveBase : controllers.slave.base = 0x28
  masterMask : controllers.masterMask = controllers.master.imr
  slaveMask : controllers.slaveMask = controllers.slave.imr

/-- A line is not masked, on whichever chip it is. -/
def enabled (controllers : Controllers) (irqNum : Nat) : Bool :=
  if irqNum < 8 then !controllers.master.imr.getLsbD irqNum
  else decide (irqNum < 16) && !controllers.slave.imr.getLsbD (irqNum - 8)

/-- The initialisation works from any state, also from the middle of another. -/
theorem i8259Init_ready (controllers : Controllers) : controllers.i8259Init.Ready := by
  constructor <;> rfl

theorem i8259Init_chips (controllers : Controllers) :
    controllers.i8259Init.master.imr = 0xfb ∧ controllers.i8259Init.slave.imr = 0xff ∧
      controllers.i8259Init.master.isr = 0 ∧ controllers.i8259Init.slave.isr = 0 ∧
      controllers.i8259Init.master.irr = 0 ∧ controllers.i8259Init.slave.irr = 0 :=
  ⟨rfl, rfl, rfl, rfl, rfl, rfl⟩

/-- Only the line between the chips is enabled. -/
theorem enabled_i8259Init (controllers : Controllers) :
    controllers.i8259Init.enabled = fun irqNum => decide (irqNum = 2) := by
  have onMaster : ∀ line < 8, (!(0xfb : BitVec 8).getLsbD line) = decide (line = 2) := by decide
  have onSlave : ∀ line < 8, (!(0xff : BitVec 8).getLsbD line) = false := by decide
  funext irqNum
  unfold enabled
  rw [controllers.i8259Init_chips.1, controllers.i8259Init_chips.2.1]
  by_cases low : irqNum < 8
  · rw [if_pos low]
    exact onMaster irqNum low
  · have notCascade : irqNum ≠ 2 := by omega
    rw [if_neg low, decide_eq_false notCascade]
    by_cases high : irqNum < 16
    · rw [onSlave (irqNum - 8) (by omega), Bool.and_false]
    · rw [decide_eq_false high, Bool.false_and]

variable {controllers : Controllers}

/-- What the driver does to an initialised pair: it sets one of the masks. -/
def withMasks (controllers : Controllers) (masterMask slaveMask : BitVec 8) : Controllers :=
  { master := { controllers.master with imr := masterMask }
    slave := { controllers.slave with imr := slaveMask }
    masterMask := masterMask
    slaveMask := slaveMask }

theorem Ready.withMasks (ready : controllers.Ready) (masterMask slaveMask : BitVec 8) :
    (controllers.withMasks masterMask slaveMask).Ready :=
  ⟨ready.master, ready.slave, ready.masterBase, ready.slaveBase, rfl, rfl⟩

theorem Ready.setMaster (ready : controllers.Ready) (mask : BitVec 8) :
    ({ controllers with masterMask := mask }.outb mask .master8259Data).readMasks =
      controllers.withMasks mask controllers.slave.imr := by
  simp only [outb, Chip.data, ready.master, readMasks, Controllers.withMasks]

theorem Ready.setSlave (ready : controllers.Ready) (mask : BitVec 8) :
    ({ controllers with slaveMask := mask }.outb mask .slave8259Data).readMasks =
      controllers.withMasks controllers.master.imr mask := by
  simp only [outb, Chip.data, ready.slave, readMasks, Controllers.withMasks]

/-- One digit of a mask changes: it is cleared to enable a line. -/
def changeDigit (enable : Bool) (mask : BitVec 8) (digit : BitVec 32) : BitVec 8 :=
  if enable then clearDigit mask digit else setDigit mask digit

/-- A call of the driver on an initialised pair. -/
def change (enable : Bool) (controllers : Controllers) (irqNum : Nat) : Controllers :=
  if irqNum < 8 then
    controllers.withMasks (changeDigit enable controllers.master.imr (testDigit irqNum))
      controllers.slave.imr
  else
    controllers.withMasks controllers.master.imr
      (changeDigit enable controllers.slave.imr (testDigit (irqNum - 8)))

theorem Ready.enableIrq_eq (ready : controllers.Ready) (irqNum : Nat) :
    controllers.enableIrq irqNum = controllers.change true irqNum := by
  unfold enableIrq change
  split
  · exact ready.setMaster _
  · exact ready.setSlave _

theorem Ready.disableIrq_eq (ready : controllers.Ready) (irqNum : Nat) :
    controllers.disableIrq irqNum = controllers.change false irqNum := by
  unfold disableIrq change
  split
  · exact ready.setMaster _
  · exact ready.setSlave _

/-- The position of the digit changes and no other. -/
theorem getLsbD_changeDigit (enable : Bool) (mask : BitVec 8) {digit line : Nat}
    (small : digit < 32) (isLine : line < 8) :
    (!(changeDigit enable mask (testDigit digit)).getLsbD line) =
      if line = digit then enable else !mask.getLsbD line := by
  rw [testDigit, Nat.mod_eq_of_lt small]
  cases enable with
  | true =>
      rw [changeDigit, if_pos rfl, getLsbD_clearDigit mask (by decide) small]
      by_cases same : line = digit
      · simp [same]
      · simp [same]
  | false =>
      rw [changeDigit, if_neg (by decide), getLsbD_setDigit mask (by decide) small]
      by_cases same : line = digit
      · simp [same, same ▸ isLine]
      · simp [same]

/-- Set one line; a number that is no line changes nothing. -/
def setLine (lines : Nat → Bool) (irqNum : Nat) (value : Bool) : Nat → Bool :=
  if irqNum < 16 then Function.update lines irqNum value else lines

/-- A call of the driver sets the line that it names. -/
theorem enabled_change (enable : Bool) {irqNum : Nat} (small : irqNum < 40) :
    (controllers.change enable irqNum).enabled = setLine controllers.enabled irqNum enable := by
  funext line
  have lines : setLine controllers.enabled irqNum enable line =
      if line = irqNum ∧ irqNum < 16 then enable else controllers.enabled line := by
    unfold setLine
    by_cases isLine : irqNum < 16
    · by_cases same : line = irqNum
      · rw [if_pos isLine, if_pos ⟨same, isLine⟩, same, Function.update_self]
      · rw [if_pos isLine, if_neg (fun both => same both.1), Function.update_of_ne same]
    · rw [if_neg isLine, if_neg (fun both => isLine both.2)]
  rw [lines]
  by_cases onMaster : irqNum < 8
  · rw [change, if_pos onMaster]
    by_cases low : line < 8
    · simp only [enabled, withMasks, low, if_true]
      rw [getLsbD_changeDigit enable _ (by omega) low]
      simp only [show irqNum < 16 by omega, and_true]
    · have apart : line ≠ irqNum := by omega
      simp only [enabled, withMasks, low, if_false, apart, false_and]
  · rw [change, if_neg onMaster]
    by_cases low : line < 8
    · have apart : line ≠ irqNum := by omega
      simp only [enabled, withMasks, low, if_true, apart, false_and, if_false]
    · by_cases high : line < 16
      · simp only [enabled, withMasks, low, high, if_false, decide_true, Bool.true_and]
        rw [getLsbD_changeDigit enable _ (by omega) (by omega)]
        have same : (line - 8 = irqNum - 8) = (line = irqNum ∧ irqNum < 16) := by
          apply propext
          omega
        simp only [same]
      · have apart : ¬ (line = irqNum ∧ irqNum < 16) := by omega
        simp only [enabled, withMasks, low, high, if_false, decide_false, Bool.false_and, apart]

theorem Ready.change (ready : controllers.Ready) (enable : Bool) (irqNum : Nat) :
    (controllers.change enable irqNum).Ready := by
  unfold Controllers.change
  split
  · exact ready.withMasks _ _
  · exact ready.withMasks _ _

/-! ## Sequences of calls -/

/-- A call of the driver. -/
inductive Request
  | enableIrq (irqNum : Nat)
  | disableIrq (irqNum : Nat)
  deriving DecidableEq

/-- The line that a call is about. -/
def Request.irqNum : Request → Nat
  | .enableIrq irqNum => irqNum
  | .disableIrq irqNum => irqNum

/-- The driver. -/
def serve (controllers : Controllers) : Request → Controllers
  | .enableIrq irqNum => controllers.enableIrq irqNum
  | .disableIrq irqNum => controllers.disableIrq irqNum

/-- What it is for: a set of lines. -/
def setLines (lines : Nat → Bool) : Request → Nat → Bool
  | .enableIrq irqNum => setLine lines irqNum true
  | .disableIrq irqNum => setLine lines irqNum false

/-- One call is the change of the set of lines. -/
theorem Ready.serve (ready : controllers.Ready) (request : Request) (small : request.irqNum < 40) :
    (controllers.serve request).Ready ∧
      (controllers.serve request).enabled = setLines controllers.enabled request := by
  cases request with
  | enableIrq irqNum =>
      simp only [Controllers.serve, setLines, ready.enableIrq_eq]
      exact ⟨ready.change true irqNum, enabled_change true small⟩
  | disableIrq irqNum =>
      simp only [Controllers.serve, setLines, ready.disableIrq_eq]
      exact ⟨ready.change false irqNum, enabled_change false small⟩

/-- After the initialisation, from whatever state, only the line between the
chips is enabled; any calls after it leave enabled what they enabled last, and
the globals of the driver hold the masks of the chips. -/
theorem i8259_masks (controllers : Controllers) (requests : List Request)
    (lines : ∀ request ∈ requests, request.irqNum < 40) :
    (requests.foldl serve controllers.i8259Init).Ready ∧
      (requests.foldl serve controllers.i8259Init).enabled =
        requests.foldl setLines (fun irqNum => decide (irqNum = 2)) := by
  rw [← controllers.enabled_i8259Init]
  have ready := controllers.i8259Init_ready
  generalize controllers.i8259Init = source at ready ⊢
  induction requests generalizing source with
  | nil => exact ⟨ready, rfl⟩
  | cons request rest ih =>
      have here := ready.serve request (lines request List.mem_cons_self)
      rw [List.foldl_cons, List.foldl_cons, ← here.2]
      exact ih (fun later member => lines later (List.mem_cons_of_mem request member)) _ here.1

/-- The calls of the device drivers at boot: `keyboard_init`, `rtc_init` and
`pit_init`. -/
def bootRequests : List Request :=
  [.enableIrq 1, .enableIrq 8, .enableIrq 0]

/-- A chip that was left in the middle of an initialisation. -/
def strayChip : Chip :=
  { awaits := .icw3, fourth := false, base := 0x08, cascade := 0, imr := 0, irr := 0xff
    isr := 0x01 }

/-- Such chips, and globals that know nothing of them. -/
def strayControllers : Controllers :=
  { master := strayChip, slave := strayChip, masterMask := 0, slaveMask := 0 }

/-- The drivers enable the timer, the keyboard and the clock, besides the line
between the chips. -/
theorem i8259_masks_boot :
    (List.range 16).filter (bootRequests.foldl serve strayControllers.i8259Init).enabled =
      [0, 1, 2, 8] := by
  rw [(i8259_masks strayControllers bootRequests (by decide)).2]
  decide

end Controllers

end PonyOS.Interrupt
