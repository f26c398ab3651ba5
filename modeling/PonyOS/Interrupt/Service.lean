import Mathlib.Data.List.Find
import PonyOS.Interrupt.Controller

/-!
# Interrupts in service

The processor takes an interrupt that the controllers present, and its handler
sends the end of interrupt: the timer and the keyboard first of all, the clock
last, and all of them before interrupts are let in again.  Whatever lines the
devices raise, and whenever, each interrupt taken is one of the three that have a
handler of their own, its handler ends it, and between handlers no line is left
in service.  So no request is held back by an earlier interrupt.
-/

namespace PonyOS.Interrupt

open PonyOS.Lib.Mask
open PonyOS.Lib.Transition
open BitVec (twoPow)

/-! ## The controllers towards the processor -/

namespace Controllers

/-- A line has been raised and not yet acknowledged. -/
def requested (controllers : Controllers) (irqNum : Nat) : Bool :=
  if irqNum < 8 then controllers.master.irr.getLsbD irqNum
  else controllers.slave.irr.getLsbD (irqNum - 8)

/-- A device raises its line. -/
def raise (controllers : Controllers) (irqNum : Nat) : Controllers :=
  if irqNum < 8 then
    { controllers with
      master := { controllers.master with irr := controllers.master.irr ||| twoPow 8 irqNum } }
  else
    { controllers with
      slave := { controllers.slave with irr := controllers.slave.irr ||| twoPow 8 (irqNum - 8) } }

/-- The line that the second chip presents. -/
def slavePresents (controllers : Controllers) : Option Nat :=
  controllers.slave.presents fun line => controllers.slave.irr.getLsbD line

/-- The line that the first chip presents; its line 2 is the second chip. -/
def masterPresents (controllers : Controllers) : Option Nat :=
  controllers.master.presents fun line =>
    if line = 2 then controllers.slavePresents.isSome else controllers.master.irr.getLsbD line

/-- An interrupt that the processor takes. -/
structure Taken where
  irqNum : Nat
  vector : BitVec 8
  deriving DecidableEq

/-- The processor takes the interrupt that is presented. -/
def take (controllers : Controllers) : Option (Taken × Controllers) :=
  match controllers.masterPresents with
  | none => none
  | some line =>
      if line = 2 then
        match controllers.slavePresents with
        | none => none
        | some behind => some
            ({ irqNum := 8 + behind, vector := controllers.slave.base + BitVec.ofNat 8 behind },
              { controllers with
                master := controllers.master.acknowledge 2
                slave := controllers.slave.acknowledge behind })
      else some
        ({ irqNum := line, vector := controllers.master.base + BitVec.ofNat 8 line },
          { controllers with master := controllers.master.acknowledge line })

end Controllers

/-- The line that the handler behind a vector ends. -/
def endedBy : Label → Option Nat
  | .pitHandlerWrapper => some 0
  | .keyboardHandlerWrapper => some 1
  | .rtcHandlerWrapper => some 8
  | _ => none

/-! ## Handlers -/

/-- The controllers, the interrupt flag, and the vector whose handler has not
yet sent its end of interrupt. -/
structure Interrupts where
  controllers : Controllers
  interruptFlag : Bool
  serving : Option (BitVec 8)

/-- What happens to them. -/
inductive InterruptEvent
  /-- A device raises its line. -/
  | raise (irqNum : Nat)
  /-- The processor takes an interrupt. -/
  | take
  /-- The handler sends its end of interrupt. -/
  | sendEoi
  /-- Interrupts are let in. -/
  | sti
  /-- Interrupts are kept out. -/
  | cli
  /-- One of the drivers is initialised. -/
  | enableIrq (irqNum : Nat)
  deriving DecidableEq

/-- One event.  An interrupt gate keeps interrupts out, and no handler lets them
in before its end of interrupt.  The drivers enable the lines of the timer, the
keyboard and the clock. -/
def interruptStep : Step Interrupts InterruptEvent (Option Controllers.Taken)
  | state, .raise irqNum =>
      if irqNum < 16 ∧ irqNum ≠ 2 then
        some (none, { state with controllers := state.controllers.raise irqNum })
      else none
  | state, .take =>
      if state.interruptFlag then
        state.controllers.take.map fun outcome =>
          (some outcome.1,
            { controllers := outcome.2
              interruptFlag := false
              serving := some outcome.1.vector })
      else none
  | state, .sendEoi =>
      match state.serving with
      | none => none
      | some vector =>
          match endedBy (installed vector.toNat) with
          | none => none
          | some irqNum => some (none,
              { state with
                controllers := state.controllers.sendEoi irqNum
                serving := none })
  | state, .sti =>
      match state.serving with
      | none => some (none, { state with interruptFlag := true })
      | some _ => none
  | state, .cli => some (none, { state with interruptFlag := false })
  | state, .enableIrq irqNum =>
      if irqNum ∈ [0, 1, 8] then
        some (none, { state with controllers := state.controllers.enableIrq irqNum })
      else none

/-- The controllers have just been initialised. -/
def Interrupts.boot (controllers : Controllers) : Interrupts :=
  { controllers := controllers.i8259Init, interruptFlag := false, serving := none }

/-! ## The lines -/

/-- What the controllers are for: which lines are pending, which are enabled, and
the one whose handler has not yet ended it. -/
structure Lines where
  pending : Nat → Bool
  enabled : Nat → Bool
  interruptFlag : Bool
  serving : Option Nat

/-- The lines in the order of their priority: the second chip comes in at line 2
of the first. -/
def priorities : List Nat :=
  [0, 1] ++ ([8, 9, 10, 11, 12, 13, 14, 15] ++ [3, 4, 5, 6, 7])

/-- One event, as the lines see it. -/
def linesStep : Step Lines InterruptEvent (Option Nat)
  | lines, .raise irqNum =>
      if irqNum < 16 ∧ irqNum ≠ 2 then
        some (none, { lines with pending := Function.update lines.pending irqNum true })
      else none
  | lines, .take =>
      if lines.interruptFlag then
        (priorities.find? fun line => lines.pending line && lines.enabled line).map fun line =>
          (some line,
            { lines with
              pending := Function.update lines.pending line false
              interruptFlag := false
              serving := some line })
      else none
  | lines, .sendEoi => lines.serving.map fun _ => (none, { lines with serving := none })
  | lines, .sti =>
      match lines.serving with
      | none => some (none, { lines with interruptFlag := true })
      | some _ => none
  | lines, .cli => some (none, { lines with interruptFlag := false })
  | lines, .enableIrq irqNum =>
      if irqNum ∈ [0, 1, 8] then
        some (none, { lines with enabled := Function.update lines.enabled irqNum true })
      else none

/-- Nothing is pending, and only the line between the chips is enabled. -/
def Lines.boot : Lines :=
  { pending := fun _ => false
    enabled := fun irqNum => decide (irqNum = 2)
    interruptFlag := false
    serving := none }

/-- The lines of a state. -/
def Interrupts.lines (state : Interrupts) : Lines :=
  { pending := state.controllers.requested
    enabled := state.controllers.enabled
    interruptFlag := state.interruptFlag
    serving := state.serving.map fun vector => vector.toNat - picOffset }

/-! ## What the chips do to the lines -/

namespace Controllers

variable {controllers : Controllers}

theorem getLsbD_or_twoPow (register : BitVec 8) {line : Nat} (isLine : line < 8) (other : Nat) :
    (register ||| twoPow 8 line).getLsbD other =
      if other = line then true else register.getLsbD other := by
  by_cases same : other = line
  · subst same
    simp [isLine]
  · have apart : ¬ line = other := fun equal => same equal.symm
    simp [same, apart]

theorem getLsbD_clear_twoPow (register : BitVec 8) (line other : Nat) :
    (register &&& ~~~ twoPow 8 line).getLsbD other =
      if other = line then false else register.getLsbD other := by
  by_cases inside : other < 8
  · by_cases same : other = line
    · subst same
      simp [inside]
    · simp [inside, same]
  · have beyond : register.getLsbD other = false :=
      BitVec.getLsbD_of_ge register other (Nat.le_of_not_lt inside)
    simp [beyond]

theorem requested_raise {irqNum : Nat} (isLine : irqNum < 16) :
    (controllers.raise irqNum).requested = Function.update controllers.requested irqNum true := by
  funext other
  rw [Function.update_apply]
  by_cases onMaster : irqNum < 8
  · rw [raise, if_pos onMaster]
    by_cases low : other < 8
    · simp only [requested, low, if_true]
      exact getLsbD_or_twoPow _ onMaster other
    · have apart : other ≠ irqNum := by omega
      simp only [requested, low, if_false, apart]
  · rw [raise, if_neg onMaster]
    by_cases low : other < 8
    · have apart : other ≠ irqNum := by omega
      simp only [requested, low, if_true, apart, if_false]
    · simp only [requested, low, if_false]
      rw [getLsbD_or_twoPow _ (by omega)]
      have same : (other - 8 = irqNum - 8) = (other = irqNum) := by
        apply propext
        omega
      simp only [same]

theorem requested_change (enable : Bool) (irqNum : Nat) :
    (controllers.change enable irqNum).requested = controllers.requested := by
  funext other
  rw [change]
  split
  · rfl
  · rfl

/-- What an acknowledged line does to both chips. -/
def acknowledged (controllers : Controllers) (irqNum : Nat) : Controllers :=
  if irqNum < 8 then { controllers with master := controllers.master.acknowledge irqNum }
  else
    { controllers with
      master := controllers.master.acknowledge 2
      slave := controllers.slave.acknowledge (irqNum - 8) }

theorem requested_acknowledged (quiet : controllers.requested 2 = false) (irqNum : Nat) :
    (controllers.acknowledged irqNum).requested =
      Function.update controllers.requested irqNum false := by
  funext other
  rw [Function.update_apply]
  by_cases onMaster : irqNum < 8
  · rw [acknowledged, if_pos onMaster]
    by_cases low : other < 8
    · simp only [requested, Chip.acknowledge, low, if_true]
      exact getLsbD_clear_twoPow _ irqNum other
    · have apart : other ≠ irqNum := by omega
      simp only [requested, low, if_false, apart]
  · rw [acknowledged, if_neg onMaster]
    by_cases low : other < 8
    · have apart : other ≠ irqNum := by omega
      simp only [requested, Chip.acknowledge, low, if_true, apart, if_false]
      rw [getLsbD_clear_twoPow]
      by_cases cascade : other = 2
      · subst cascade
        rw [if_pos rfl]
        exact quiet.symm
      · rw [if_neg cascade]
    · simp only [requested, Chip.acknowledge, low, if_false]
      rw [getLsbD_clear_twoPow]
      have same : (other - 8 = irqNum - 8) = (other = irqNum) := by
        apply propext
        omega
      simp only [same]

/-- Other requests and other lines in service. -/
def withRegisters (controllers : Controllers) (masterIrr masterIsr slaveIrr slaveIsr : BitVec 8) :
    Controllers :=
  { controllers with
    master := { controllers.master with irr := masterIrr, isr := masterIsr }
    slave := { controllers.slave with irr := slaveIrr, isr := slaveIsr } }

theorem enabled_withRegisters (masterIrr masterIsr slaveIrr slaveIsr : BitVec 8) :
    (controllers.withRegisters masterIrr masterIsr slaveIrr slaveIsr).enabled =
      controllers.enabled :=
  rfl

theorem Ready.withRegisters (ready : controllers.Ready)
    (masterIrr masterIsr slaveIrr slaveIsr : BitVec 8) :
    (controllers.withRegisters masterIrr masterIsr slaveIrr slaveIsr).Ready :=
  ⟨ready.master, ready.slave, ready.masterBase, ready.slaveBase, ready.masterMask,
    ready.slaveMask⟩

theorem raise_registers (controllers : Controllers) (irqNum : Nat) :
    ∃ masterIrr slaveIrr, controllers.raise irqNum = controllers.withRegisters masterIrr
      controllers.master.isr slaveIrr controllers.slave.isr := by
  rw [raise]
  split
  · exact ⟨_, _, rfl⟩
  · exact ⟨_, _, rfl⟩

theorem acknowledged_registers (controllers : Controllers) (irqNum : Nat) :
    ∃ masterIrr masterIsr slaveIrr slaveIsr, controllers.acknowledged irqNum =
      controllers.withRegisters masterIrr masterIsr slaveIrr slaveIsr := by
  rw [acknowledged]
  split
  · exact ⟨_, _, _, _, rfl⟩
  · exact ⟨_, _, _, _, rfl⟩

theorem enabled_raise (irqNum : Nat) :
    (controllers.raise irqNum).enabled = controllers.enabled := by
  rcases controllers.raise_registers irqNum with ⟨_, _, registers⟩
  rw [registers, enabled_withRegisters]

theorem enabled_acknowledged (irqNum : Nat) :
    (controllers.acknowledged irqNum).enabled = controllers.enabled := by
  rcases controllers.acknowledged_registers irqNum with ⟨_, _, _, _, registers⟩
  rw [registers, enabled_withRegisters]

/-! ## The line that is taken -/

/-- No line is in service. -/
def Idle (controllers : Controllers) : Prop :=
  controllers.master.isr = 0 ∧ controllers.slave.isr = 0

/-- A chip with nothing in service holds nothing back. -/
theorem presents_of_idle {chip : Chip} (idle : chip.isr = 0) (requested : Nat → Bool) :
    chip.presents requested =
      (List.range 8).find? fun line => requested line && !chip.imr.getLsbD line := by
  have free : ∀ line, chip.blocked line = false := by
    intro line
    simp [Chip.blocked, idle]
  rw [Chip.presents]
  cases (List.range 8).find? fun line => requested line && !chip.imr.getLsbD line with
  | none => rfl
  | some line => simp [Option.filter, free]

/-- The lines of the second chip, in the numbers of the processor. -/
theorem slavePresents_of_idle (idle : controllers.Idle) :
    controllers.slavePresents.map (fun line => 8 + line) =
      [8, 9, 10, 11, 12, 13, 14, 15].find? fun line =>
        controllers.requested line && controllers.enabled line := by
  rw [slavePresents, presents_of_idle idle.2]
  have shifted : [8, 9, 10, 11, 12, 13, 14, 15] = (List.range 8).map (fun line => 8 + line) := rfl
  rw [shifted, List.find?_map]
  apply congrArg (Option.map fun line => 8 + line)
  apply List.find?_congr
  intro line member
  have isLine : line < 8 := List.mem_range.mp member
  have high : ¬ 8 + line < 8 := by omega
  have inside : 8 + line < 16 := by omega
  simp [requested, enabled, high, inside]

/-- The lines of the first chip, apart from the one between the chips. -/
theorem find_onMaster (own : List Nat) (onMaster : ∀ line ∈ own, line < 8 ∧ line ≠ 2) :
    (own.find? fun line =>
      (if line = 2 then controllers.slavePresents.isSome else controllers.master.irr.getLsbD line)
        && !controllers.master.imr.getLsbD line) =
      own.find? fun line => controllers.requested line && controllers.enabled line := by
  apply List.find?_congr
  intro line member
  rcases onMaster line member with ⟨low, apart⟩
  simp only [requested, enabled, low, if_true, apart, if_false]

/-- What the processor does with the line that the first chip presents. -/
def taken (controllers : Controllers) (irqNum : Nat) : Taken × Controllers :=
  ({ irqNum := irqNum, vector := 0x20 + BitVec.ofNat 8 irqNum }, controllers.acknowledged irqNum)

/-- With nothing in service, what is taken is the pending and enabled line of the
highest priority, under its own vector. -/
theorem take_of_idle (ready : controllers.Ready) (cascade : controllers.enabled 2 = true)
    (idle : controllers.Idle) :
    controllers.take =
      (priorities.find? fun line => controllers.requested line && controllers.enabled line).map
        controllers.taken := by
  have range : List.range 8 = [0, 1] ++ ([2] ++ [3, 4, 5, 6, 7]) := rfl
  have between : [2].find? (fun line =>
      (if line = 2 then controllers.slavePresents.isSome else controllers.master.irr.getLsbD line)
        && !controllers.master.imr.getLsbD line) = controllers.slavePresents.map fun _ => 2 := by
    have isOpen : (!controllers.master.imr.getLsbD 2) = true := cascade
    cases behind : controllers.slavePresents with
    | none => simp
    | some line =>
        simp only [List.find?_cons, if_true, Option.isSome_some, Bool.true_and, isOpen,
          Option.map_some]
  have onMaster : ∀ line, line < 8 →
      (({ irqNum := line, vector := controllers.master.base + BitVec.ofNat 8 line },
        { controllers with master := controllers.master.acknowledge line }) :
          Taken × Controllers) = controllers.taken line := by
    intro line low
    rw [taken, acknowledged, if_pos low, ready.masterBase]
  rw [priorities, List.find?_append, List.find?_append, ← slavePresents_of_idle idle, take,
    masterPresents, presents_of_idle idle.1, range, List.find?_append, List.find?_append,
    find_onMaster [0, 1] (by decide), between, find_onMaster [3, 4, 5, 6, 7] (by decide)]
  cases first : [0, 1].find? fun line => controllers.requested line && controllers.enabled line with
  | some line =>
      have own : ∀ line ∈ [0, 1], line < 8 ∧ line ≠ 2 := by decide
      rcases own line (List.mem_of_find?_eq_some first) with ⟨low, apart⟩
      simp only [Option.some_or, Option.map_some, apart, if_false, onMaster line low]
  | none =>
      cases behind : controllers.slavePresents with
      | some line =>
          have high : ¬ 8 + line < 8 := by omega
          have vector : (0x28 : BitVec 8) + BitVec.ofNat 8 line =
              0x20 + BitVec.ofNat 8 (8 + line) := by
            rw [BitVec.ofNat_add, ← BitVec.add_assoc]
            rfl
          simp only [Option.map_some, Option.none_or, Option.some_or, if_true, taken, acknowledged,
            high, if_false, ready.slaveBase, vector, Nat.add_sub_cancel_left]
      | none =>
          cases last : [3, 4, 5, 6, 7].find? fun line =>
              controllers.requested line && controllers.enabled line with
          | some line =>
              have own : ∀ line ∈ [3, 4, 5, 6, 7], line < 8 ∧ line ≠ 2 := by decide
              rcases own line (List.mem_of_find?_eq_some last) with ⟨low, apart⟩
              simp only [Option.map_none, Option.none_or, Option.map_some, apart, if_false,
                onMaster line low]
          | none => rfl

end Controllers

/-! ## Every run -/

/-- The lines that have a handler. -/
def handled : List Nat := [0, 1, 8]

/-- A line is in service alone; one of the second chip together with the line
between the chips. -/
def Controllers.Serves (controllers : Controllers) (irqNum : Nat) : Prop :=
  if irqNum < 8 then controllers.master.isr = twoPow 8 irqNum ∧ controllers.slave.isr = 0
  else controllers.master.isr = twoPow 8 2 ∧ controllers.slave.isr = twoPow 8 (irqNum - 8)

/-- What holds in every state: only lines with a handler are enabled, and the
chips serve the line whose handler is at work. -/
structure Interrupts.Inv (state : Interrupts) : Prop where
  ready : state.controllers.Ready
  lines : ∀ irqNum, state.controllers.enabled irqNum = true → irqNum = 2 ∨ irqNum ∈ handled
  cascade : state.controllers.enabled 2 = true
  quiet : state.controllers.requested 2 = false
  idle : state.serving = none → state.controllers.Idle
  busy : ∀ vector, state.serving = some vector → state.interruptFlag = false ∧
    ∃ irqNum ∈ handled, vector = 0x20 + BitVec.ofNat 8 irqNum ∧ state.controllers.Serves irqNum

/-- The vector of a line leads to the handler that ends it. -/
theorem endedBy_installed {irqNum : Nat} (member : irqNum ∈ handled) :
    (0x20 + BitVec.ofNat 8 irqNum : BitVec 8).toNat = picOffset + irqNum ∧
      endedBy (installed (picOffset + irqNum)) = some irqNum := by
  revert irqNum
  decide

theorem Chip.command_eoiByte (chip : Chip) {line : Nat} (isLine : line < 8) :
    chip.command (Controllers.eoiByte line) =
      { chip with isr := chip.isr &&& ~~~ twoPow 8 line } := by
  have byte : ∀ line < 8, (Controllers.eoiByte line).getLsbD 4 = false ∧
      Controllers.eoiByte line &&& 0xF8 = 0x60 ∧ (Controllers.eoiByte line &&& 7).toNat = line := by
    decide
  rcases byte line isLine with ⟨notFirst, isEnd, number⟩
  rw [command, if_neg (by rw [notFirst]; decide), if_pos isEnd, number]

/-- The end of interrupt takes the line out of service. -/
theorem Controllers.Serves.sendEoi {controllers : Controllers} {irqNum : Nat}
    (serves : controllers.Serves irqNum) (isLine : irqNum < 16) :
    controllers.sendEoi irqNum =
      controllers.withRegisters controllers.master.irr 0 controllers.slave.irr 0 := by
  unfold Controllers.Serves at serves
  unfold Controllers.sendEoi
  by_cases onMaster : irqNum < 8
  · rw [if_pos onMaster] at serves ⊢
    rcases serves with ⟨master, slave⟩
    rw [outb, Chip.command_eoiByte _ onMaster, master, BitVec.and_not_self, withRegisters, ← slave]
  · rw [if_neg onMaster] at serves ⊢
    rcases serves with ⟨master, slave⟩
    simp only [outb, Chip.command_eoiByte _ (show irqNum - 8 < 8 by omega),
      Chip.command_eoiByte _ (show 2 < 8 by decide), master, slave, BitVec.and_not_self,
      withRegisters]

/-- A line that is acknowledged while nothing is in service is served. -/
theorem Controllers.Idle.serves {controllers : Controllers} (idle : controllers.Idle)
    (irqNum : Nat) : (controllers.acknowledged irqNum).Serves irqNum := by
  unfold Controllers.Serves Controllers.acknowledged
  by_cases onMaster : irqNum < 8
  · rw [if_pos onMaster, if_pos onMaster]
    exact ⟨by simp [Chip.acknowledge, idle.1], idle.2⟩
  · rw [if_neg onMaster, if_neg onMaster]
    exact ⟨by simp [Chip.acknowledge, idle.1], by simp [Chip.acknowledge, idle.2]⟩

namespace Interrupts

variable {state target : Interrupts} {event : InterruptEvent} {reply : Option Controllers.Taken}

/-- A reply as the lines see it. -/
def shown (outcome : Option Controllers.Taken × Interrupts) : Option Nat × Lines :=
  (outcome.1.map Controllers.Taken.irqNum, outcome.2.lines)

/-- Interrupts are let in only while nothing is in service. -/
theorem Inv.idle_of_flag (inv : state.Inv) (flag : state.interruptFlag = true) :
    state.serving = none ∧ state.controllers.Idle := by
  cases serving : state.serving with
  | none => exact ⟨rfl, inv.idle serving⟩
  | some vector =>
      have off := (inv.busy vector serving).1
      rw [flag] at off
      contradiction

/-- The state after a line was taken. -/
def afterTake (state : Interrupts) (irqNum : Nat) : Interrupts :=
  { controllers := state.controllers.acknowledged irqNum
    interruptFlag := false
    serving := some (0x20 + BitVec.ofNat 8 irqNum) }

theorem Inv.take_eq (inv : state.Inv) (flag : state.interruptFlag = true) :
    interruptStep state .take =
      (priorities.find? fun line =>
        state.controllers.requested line && state.controllers.enabled line).map fun line =>
          (some (state.controllers.taken line).1, state.afterTake line) := by
  simp only [interruptStep, flag, if_true,
    Controllers.take_of_idle inv.ready inv.cascade (inv.idle_of_flag flag).2, Option.map_map]
  rfl

theorem Inv.found (inv : state.Inv) {line : Nat}
    (found : (priorities.find? fun line =>
      state.controllers.requested line && state.controllers.enabled line) = some line) :
    line ∈ handled := by
  have apart : ∀ line ∈ priorities, line ≠ 2 := by decide
  have both := List.find?_some found
  rw [Bool.and_eq_true] at both
  rcases inv.lines line both.2 with cascade | member
  · exact absurd cascade (apart line (List.mem_of_find?_eq_some found))
  · exact member

/-- The state after an end of interrupt. -/
def afterEoi (state : Interrupts) : Interrupts :=
  { state with
    controllers := state.controllers.withRegisters state.controllers.master.irr 0
      state.controllers.slave.irr 0
    serving := none }

theorem Inv.sendEoi_eq (inv : state.Inv) :
    interruptStep state .sendEoi = state.serving.map fun _ => (none, state.afterEoi) := by
  cases serving : state.serving with
  | none => simp only [interruptStep, serving, Option.map_none]
  | some vector =>
      rcases inv.busy vector serving with ⟨_, irqNum, member, rfl, serves⟩
      rcases endedBy_installed member with ⟨number, handler⟩
      have isLine : ∀ line ∈ handled, line < 16 := by decide
      simp only [interruptStep, serving, number, handler, serves.sendEoi (isLine irqNum member),
        Option.map_some, afterEoi]

/-- What one event does, seen on the lines, is what it does to the lines. -/
theorem Inv.shown_interruptStep (inv : state.Inv) (event : InterruptEvent) :
    (interruptStep state event).map shown = linesStep state.lines event := by
  cases event with
  | raise irqNum =>
      simp only [interruptStep, linesStep]
      split
      · rename_i isLine
        simp only [Option.map_some, shown, Interrupts.lines, Option.map_none,
          Controllers.enabled_raise, Controllers.requested_raise isLine.1]
      · rfl
  | take =>
      by_cases flag : state.interruptFlag = true
      · have same : state.lines.interruptFlag = true := flag
        rw [inv.take_eq flag, linesStep, if_pos same, Option.map_map]
        apply Option.map_congr
        intro line found
        have member := inv.found found
        simp only [Function.comp_apply, shown, Option.map_some, Interrupts.lines, afterTake,
          Controllers.taken,
          Controllers.enabled_acknowledged, Controllers.requested_acknowledged inv.quiet,
          (endedBy_installed member).1,
          Nat.add_sub_cancel_left]
      · have same : ¬ state.lines.interruptFlag = true := flag
        rw [interruptStep, linesStep, if_neg flag, if_neg same, Option.map_none]
  | sendEoi =>
      rw [inv.sendEoi_eq, linesStep, Interrupts.lines, Option.map_map, Option.map_map]
      rfl
  | sti =>
      simp only [interruptStep, linesStep, Interrupts.lines]
      cases state.serving with
      | none => rfl
      | some vector => rfl
  | cli => rfl
  | enableIrq irqNum =>
      simp only [interruptStep, linesStep]
      split
      · rename_i member
        have isLine : ∀ line ∈ [0, 1, 8], line < 16 := by decide
        have small := isLine irqNum member
        simp only [Option.map_some, shown, Interrupts.lines, Option.map_none,
          inv.ready.enableIrq_eq, Controllers.requested_change,
          Controllers.enabled_change true (show irqNum < 40 by omega), Controllers.setLine, small,
          if_true]
      · rfl

/-! What one event preserves, event by event. -/

theorem Inv.raise (inv : state.Inv) {irqNum : Nat} (isLine : irqNum < 16 ∧ irqNum ≠ 2) :
    Inv { state with controllers := state.controllers.raise irqNum } := by
  have quiet : (state.controllers.raise irqNum).requested 2 = false := by
    rw [Controllers.requested_raise isLine.1, Function.update_of_ne isLine.2.symm]
    exact inv.quiet
  rcases state.controllers.raise_registers irqNum with ⟨_, _, registers⟩
  rw [registers] at quiet ⊢
  exact
    { ready := inv.ready.withRegisters _ _ _ _
      lines := inv.lines
      cascade := inv.cascade
      quiet := quiet
      idle := inv.idle
      busy := inv.busy }

theorem Inv.afterTake (inv : state.Inv) (flag : state.interruptFlag = true) {irqNum : Nat}
    (member : irqNum ∈ handled) : (state.afterTake irqNum).Inv := by
  have served := (inv.idle_of_flag flag).2.serves irqNum
  have quiet : (state.controllers.acknowledged irqNum).requested 2 = false := by
    have apart : ∀ line ∈ handled, 2 ≠ line := by decide
    rw [Controllers.requested_acknowledged inv.quiet,
      Function.update_of_ne (apart irqNum member)]
    exact inv.quiet
  unfold Interrupts.afterTake
  rcases state.controllers.acknowledged_registers irqNum with ⟨_, _, _, _, registers⟩
  rw [registers] at served quiet ⊢
  refine
    { ready := inv.ready.withRegisters _ _ _ _
      lines := inv.lines
      cascade := inv.cascade
      quiet := quiet
      idle := fun idle => absurd idle (Option.some_ne_none _)
      busy := ?_ }
  intro vector serving
  exact ⟨rfl, irqNum, member, (Option.some.inj serving).symm, served⟩

theorem Inv.afterEoi (inv : state.Inv) : state.afterEoi.Inv where
  ready := inv.ready.withRegisters _ _ _ _
  lines := inv.lines
  cascade := inv.cascade
  quiet := inv.quiet
  idle := fun _ => ⟨rfl, rfl⟩
  busy := fun vector serving => absurd serving.symm (Option.some_ne_none vector)

theorem Inv.sti (inv : state.Inv) (serving : state.serving = none) :
    Inv { state with interruptFlag := true } where
  ready := inv.ready
  lines := inv.lines
  cascade := inv.cascade
  quiet := inv.quiet
  idle := inv.idle
  busy := fun vector busy => by
    rw [serving] at busy
    contradiction

theorem Inv.cli (inv : state.Inv) : Inv { state with interruptFlag := false } where
  ready := inv.ready
  lines := inv.lines
  cascade := inv.cascade
  quiet := inv.quiet
  idle := inv.idle
  busy := fun vector busy => ⟨rfl, (inv.busy vector busy).2⟩

theorem Inv.enableIrq (inv : state.Inv) {irqNum : Nat} (member : irqNum ∈ handled) :
    Inv { state with controllers := state.controllers.enableIrq irqNum } := by
  have bounds : ∀ line ∈ handled, line < 16 ∧ 2 ≠ line := by decide
  rcases bounds irqNum member with ⟨small, apart⟩
  have enabled : (state.controllers.change true irqNum).enabled =
      Function.update state.controllers.enabled irqNum true := by
    rw [Controllers.enabled_change true (by omega), Controllers.setLine, if_pos small]
  have idle : state.controllers.Idle → (state.controllers.change true irqNum).Idle := by
    rw [Controllers.change]
    split
    · exact id
    · exact id
  have serves : ∀ line, state.controllers.Serves line →
      (state.controllers.change true irqNum).Serves line := by
    rw [Controllers.change]
    split
    · exact fun _ => id
    · exact fun _ => id
  rw [inv.ready.enableIrq_eq]
  refine
    { ready := inv.ready.change true irqNum
      lines := ?_
      cascade := ?_
      quiet := ?_
      idle := fun serving => idle (inv.idle serving)
      busy := ?_ }
  · intro line isEnabled
    rw [enabled] at isEnabled
    by_cases same : line = irqNum
    · exact Or.inr (same ▸ member)
    · rw [Function.update_of_ne same] at isEnabled
      exact inv.lines line isEnabled
  · rw [enabled, Function.update_of_ne apart]
    exact inv.cascade
  · rw [Controllers.requested_change]
    exact inv.quiet
  · intro vector serving
    rcases inv.busy vector serving with ⟨off, line, handler, number, served⟩
    exact ⟨off, line, handler, number, serves line served⟩

/-- The vector of an interrupt leads to the handler that ends its line. -/
def Ended (reply : Option Controllers.Taken) : Prop :=
  ∀ taken, reply = some taken →
    ∀ idt, endedBy (initializeIdt idt taken.vector.toNat).offset = some taken.irqNum

theorem Inv.interruptStep (inv : state.Inv)
    (step : interruptStep state event = some (reply, target)) :
    target.Inv ∧ Ended reply := by
  have silent : Ended none := fun taken none => absurd none.symm (Option.some_ne_none taken)
  cases event with
  | raise irqNum =>
      simp only [Interrupt.interruptStep, Option.ite_none_right_eq_some, Option.some.injEq,
        Prod.mk.injEq] at step
      rcases step with ⟨isLine, rfl, rfl⟩
      exact ⟨inv.raise isLine, silent⟩
  | take =>
      by_cases flag : state.interruptFlag = true
      · rw [inv.take_eq flag, Option.map_eq_some_iff] at step
        rcases step with ⟨line, found, outcome⟩
        rcases Prod.mk.inj outcome with ⟨rfl, rfl⟩
        have member := inv.found found
        refine ⟨inv.afterTake flag member, ?_⟩
        intro taken same idt
        rcases Option.some.inj same with rfl
        rcases endedBy_installed member with ⟨number, handler⟩
        have inTable : ∀ line ∈ handled, picOffset + line < numVec := by decide
        rw [Controllers.taken, number, initializeIdt_eq idt (inTable line member)]
        exact handler
      · rw [Interrupt.interruptStep, if_neg flag] at step
        contradiction
  | sendEoi =>
      rw [inv.sendEoi_eq, Option.map_eq_some_iff] at step
      rcases step with ⟨vector, serving, outcome⟩
      rcases Prod.mk.inj outcome with ⟨rfl, rfl⟩
      exact ⟨inv.afterEoi, silent⟩
  | sti =>
      simp only [Interrupt.interruptStep] at step
      cases serving : state.serving with
      | none =>
          rw [serving] at step
          rcases Prod.mk.inj (Option.some.inj step) with ⟨rfl, rfl⟩
          rw [← serving]
          exact ⟨inv.sti serving, silent⟩
      | some vector =>
          rw [serving] at step
          contradiction
  | cli =>
      rcases Prod.mk.inj (Option.some.inj step) with ⟨rfl, rfl⟩
      exact ⟨inv.cli, silent⟩
  | enableIrq irqNum =>
      simp only [Interrupt.interruptStep, Option.ite_none_right_eq_some, Option.some.injEq,
        Prod.mk.injEq] at step
      rcases step with ⟨member, rfl, rfl⟩
      exact ⟨inv.enableIrq member, silent⟩

theorem requested_i8259Init (controllers : Controllers) :
    controllers.i8259Init.requested = fun _ => false := by
  funext irqNum
  unfold Controllers.requested
  rcases controllers.i8259Init_chips with ⟨_, _, _, _, master, slave⟩
  rw [master, slave]
  split
  · exact BitVec.getLsbD_zero
  · exact BitVec.getLsbD_zero

theorem lines_boot (controllers : Controllers) : (boot controllers).lines = Lines.boot := by
  simp only [lines, boot, requested_i8259Init, Controllers.enabled_i8259Init, Lines.boot,
    Option.map_none]

theorem boot_inv (controllers : Controllers) : (boot controllers).Inv where
  ready := controllers.i8259Init_ready
  lines := fun irqNum isEnabled => by
    have only2 := congrFun controllers.enabled_i8259Init irqNum
    exact Or.inl (of_decide_eq_true (only2.symm.trans isEnabled))
  cascade := congrFun controllers.enabled_i8259Init 2
  quiet := congrFun (requested_i8259Init controllers) 2
  idle := fun _ => ⟨rfl, rfl⟩
  busy := fun vector serving => absurd serving.symm (Option.some_ne_none vector)

end Interrupts

/-- A step of a trace as the lines see it. -/
def shownStep (step : InterruptEvent × Option Controllers.Taken) : InterruptEvent × Option Nat :=
  (step.1, step.2.map Controllers.Taken.irqNum)

/-- From the initialisation on, the chips and the handlers behind them do what
the plain lines do: a line that is raised stays pending until it is taken, the
pending and enabled line of the highest priority is taken whenever interrupts are
let in, none is held back by an earlier one, and each is ended by the handler
that its vector leads to. -/
theorem interrupts_are_lines (controllers : Controllers)
    {trace : List (InterruptEvent × Option Controllers.Taken)} {state : Interrupts}
    (run : Run interruptStep (Interrupts.boot controllers) trace state) :
    Run linesStep Lines.boot (trace.map shownStep) state.lines ∧
      (∀ event, (interruptStep state event).map Interrupts.shown = linesStep state.lines event) ∧
      ∀ step ∈ trace, Interrupts.Ended step.2 := by
  have initial := Interrupts.boot_inv controllers
  rw [← Interrupts.lines_boot controllers]
  generalize Interrupts.boot controllers = source at run initial
  induction run with
  | nil state =>
      exact ⟨.nil _, initial.shown_interruptStep, fun _ member => absurd member List.not_mem_nil⟩
  | @cons state middle target event reply rest _ step _ ih =>
      have stepped := initial.interruptStep step
      have seen := initial.shown_interruptStep event
      rw [step, Option.map_some] at seen
      rcases ih stepped.1 with ⟨later, last, ended⟩
      refine ⟨.cons trivial seen.symm later, last, ?_⟩
      intro past member
      rcases List.mem_cons.mp member with rfl | member
      · exact stepped.2
      · exact ended past member

/-- The drivers are initialised, the clock and the keyboard raise their lines
together, and both are served. -/
def bothServed : List (InterruptEvent × Option Controllers.Taken) :=
  [(.enableIrq 1, none), (.enableIrq 8, none), (.enableIrq 0, none), (.raise 8, none),
    (.raise 1, none), (.sti, none), (.take, some { irqNum := 1, vector := 0x21 }),
    (.raise 8, none), (.sendEoi, none), (.sti, none),
    (.take, some { irqNum := 8, vector := 0x28 }), (.sendEoi, none)]

theorem interrupts_are_lines_bothServed :
    ∃ state, Run interruptStep (Interrupts.boot Controllers.strayControllers) bothServed state ∧
      Run linesStep Lines.boot (bothServed.map shownStep) state.lines := by
  have run : ∃ state,
      Run interruptStep (Interrupts.boot Controllers.strayControllers) bothServed state := by
    exact ⟨_, .cons trivial rfl (.cons trivial rfl (.cons trivial rfl (.cons trivial rfl
      (.cons trivial rfl (.cons trivial rfl (.cons trivial rfl (.cons trivial rfl
        (.cons trivial rfl (.cons trivial rfl (.cons trivial rfl (.cons trivial rfl
          (.nil _))))))))))))⟩
  rcases run with ⟨state, run⟩
  exact ⟨state, run, (interrupts_are_lines Controllers.strayControllers run).1⟩

end PonyOS.Interrupt
