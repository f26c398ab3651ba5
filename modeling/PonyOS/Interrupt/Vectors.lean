import PonyOS.Interrupt.Machine
import PonyOS.Lib.Loop

/-!
# The interrupt vectors

`initialize_idt` points all 256 vectors to `general_handler_wrapper` before it
sets the ones it knows.  That is the wrapper of the system calls: it dispatches on
the `eax` of whoever was interrupted and leaves its own result there.  The wrapper
that saves all registers around `general_handler` has a second `r` in its name
and is not installed anywhere.
-/

namespace PonyOS.Interrupt

open PonyOS.Lib.Loop
open PonyOS.Lib.Word

/-! ## The code -/

/-- The exceptions with a handler: `exception_de` to `exception_xf`. -/
inductive Exception where
  | de
  | db
  | nmi
  | bp
  | of
  | br
  | ud
  | nm
  | df
  | cs
  | ts
  | np
  | ss
  | gp
  | pf
  | rs
  | mf
  | ac
  | mc
  | xf
deriving DecidableEq, Repr

/-- The text that its handler prints. -/
def Exception.text : Exception → String
  | .de => "0:Divide by zero!"
  | .db => "1:Debug exception!"
  | .nmi => "2:Non-maskable interrupt!"
  | .bp => "3:Breakpoint Exception!"
  | .of => "4:overflow!"
  | .br => "5:bound range exceeded!"
  | .ud => "6:Invalid Opcode!"
  | .nm => "7:Device Not Available!"
  | .df => "8:Double Fault!"
  | .cs => "9:Coprocessor Segment Overrun!"
  | .ts => "10:Invalid TSS!"
  | .np => "11:Segment Not Present!"
  | .ss => "12:Stack Fault!"
  | .gp => "13:General Protection Exception!"
  | .pf => "14:Page-Fault!"
  | .rs => "15:reserved, test error!"
  | .mf => "16:FPU Floating-Point Error!"
  | .ac => "17:Alignment Check Exception!"
  | .mc => "18:Machine-Check Exception!"
  | .xf => "19:SIMD Floating-Point Exception!"

/-- The C functions that the code calls by name. -/
inductive CFunction where
  | pitHandler
  | keyboardInterruptHandler
  | rtcInterruptHandler
  | generalHandler
  | clear
  | printf (text : String)
deriving DecidableEq, Repr

/-- A wrapper that saves all registers around a call. -/
def savingWrapper (handler : CFunction) (after : List (Instruction CFunction)) :
    List (Instruction CFunction) :=
  [.pusha, .cld, .call handler, .popa] ++ after ++ [.iret]

/-- `pit_handler_wrapper`. -/
def pitHandlerWrapper : List (Instruction CFunction) :=
  savingWrapper .pitHandler [.sti]

/-- `keyboard_handler_wrapper`. -/
def keyboardHandlerWrapper : List (Instruction CFunction) :=
  savingWrapper .keyboardInterruptHandler []

/-- `rtc_handler_wrapper`. -/
def rtcHandlerWrapper : List (Instruction CFunction) :=
  savingWrapper .rtcInterruptHandler []

/-- `general_handler_wrapperr`. -/
def generalHandlerWrapperr : List (Instruction CFunction) :=
  savingWrapper .generalHandler []

/-- `general_handler_wrapper`. -/
def generalHandlerWrapper : List (Instruction CFunction) :=
  [.pushl .ebp, .pushl .esi, .pushl .edi,
    .pushl .edx, .pushl .ecx, .pushl .ebx,
    .cmpl 8 .eax, .jg 12,
    .cmpl 0 .eax, .jle 12,
    .callTable .eax, .jmp 13,
    -- `invalid_eax`
    .movl 0xFFFFFFFF .eax,
    -- `valid_eax`
    .popl .ebx, .popl .ecx, .popl .edx,
    .popl .edi, .popl .esi, .popl .ebp,
    .iret]

/-- An exception handler, a C function that ends in `while(1)`. -/
def exceptionHandler (exception : Exception) : List (Instruction CFunction) :=
  [.cli, .call .clear, .call (.printf exception.text), .jmp 3]

/-- The addresses that `SET_IDT_ENTRY` is given. -/
inductive Label where
  | generalHandlerWrapper
  | keyboardHandlerWrapper
  | rtcHandlerWrapper
  | pitHandlerWrapper
  | exception (which : Exception)
deriving DecidableEq, Repr

/-- The code at an address. -/
def Label.code : Label → List (Instruction CFunction)
  | .generalHandlerWrapper => Interrupt.generalHandlerWrapper
  | .keyboardHandlerWrapper => Interrupt.keyboardHandlerWrapper
  | .rtcHandlerWrapper => Interrupt.rtcHandlerWrapper
  | .pitHandlerWrapper => Interrupt.pitHandlerWrapper
  | .exception which => exceptionHandler which

/-! ## The table -/

/-- `NUM_VEC`. -/
def numVec : Nat := 256

/-- `SYSCALL_INDEX`. -/
def syscallIndex : Nat := 0x80

/-- `PIC_OFFSET`. -/
def picOffset : Nat := 0x20

/-- `KERNEL_CS`. -/
def kernelCs : Nat := 0x10

/-- `idt_desc_t`, with the address of the handler in one piece. -/
structure IdtDesc where
  offset : Label
  segSelector : Nat
  reserved4 : Nat
  reserved3 : Nat
  reserved2 : Nat
  reserved1 : Nat
  size : Nat
  reserved0 : Nat
  dpl : Nat
  present : Nat
deriving DecidableEq, Repr

/-- The entry that the loop of `initialize_idt` writes. -/
def defaultEntry (i : Nat) : IdtDesc :=
  { dpl := if i = syscallIndex then 3 else 0
    present := 1
    segSelector := kernelCs
    reserved0 := 0
    size := 1
    reserved1 := 1
    reserved2 := 1
    reserved4 := 0
    reserved3 := if i ≥ 0x20 then 0 else 1
    offset := .generalHandlerWrapper }

/-- `SET_IDT_ENTRY`. -/
def setIdtEntry (idt : Nat → IdtDesc) (i : Nat) (handler : Label) : Nat → IdtDesc :=
  Function.update idt i { idt i with offset := handler }

/-- The vectors of the exceptions, in the order of the assignments. -/
def exceptionVectors : List (Nat × Exception) :=
  [(0, .de), (1, .db), (2, .nmi), (3, .bp), (4, .of), (5, .br), (6, .ud), (7, .nm),
    (8, .df), (9, .cs), (10, .ts), (11, .np), (12, .ss), (13, .gp), (14, .pf), (15, .rs),
    (16, .mf), (17, .ac), (18, .mc), (19, .xf)]

/-- `initialize_idt`. -/
def initializeIdt (idt : Nat → IdtDesc) : Nat → IdtDesc :=
  let idt := forUpTo numVec (fun i idt => Function.update idt i (defaultEntry i)) idt
  let idt := setIdtEntry idt (picOffset + 1) .keyboardHandlerWrapper
  let idt := setIdtEntry idt (picOffset + 8) .rtcHandlerWrapper
  let idt := setIdtEntry idt (picOffset + 0) .pitHandlerWrapper
  let idt := exceptionVectors.foldl
    (fun idt entry => setIdtEntry idt entry.1 (.exception entry.2)) idt
  setIdtEntry idt syscallIndex .generalHandlerWrapper

/-- The handler that a vector ends up with. -/
def installed (i : Nat) : Label :=
  match exceptionVectors.lookup i with
  | some exception => .exception exception
  | none =>
      if i = picOffset + 0 then .pitHandlerWrapper
      else if i = picOffset + 1 then .keyboardHandlerWrapper
      else if i = picOffset + 8 then .rtcHandlerWrapper
      else .generalHandlerWrapper

theorem setIdtEntry_of_ne {idt : Nat → IdtDesc} {i j : Nat} (handler : Label) (other : i ≠ j) :
    setIdtEntry idt j handler i = idt i :=
  Function.update_of_ne other _ _

theorem setIdtEntry_self (idt : Nat → IdtDesc) (i : Nat) (handler : Label) :
    setIdtEntry idt i handler i = { idt i with offset := handler } :=
  Function.update_self _ _ _

/-- Assignments to distinct vectors. -/
theorem foldl_setIdtEntry {entries : List (Nat × Exception)}
    (distinct : (entries.map Prod.fst).Nodup) (idt : Nat → IdtDesc) (i : Nat) :
    entries.foldl (fun idt entry => setIdtEntry idt entry.1 (.exception entry.2)) idt i =
      match entries.lookup i with
      | some exception => { idt i with offset := .exception exception }
      | none => idt i := by
  induction entries generalizing idt with
  | nil => rfl
  | cons entry rest ih =>
      obtain ⟨vector, exception⟩ := entry
      obtain ⟨fresh, restDistinct⟩ := List.nodup_cons.mp distinct
      rw [List.foldl_cons, ih restDistinct, List.lookup_cons]
      by_cases same : i = vector
      · subst same
        have absent : rest.lookup i = none := by
          rw [List.lookup_eq_none_iff]
          intro entry member
          rw [bne_iff_ne]
          rintro rfl
          exact fresh (List.mem_map.mpr ⟨entry, member, rfl⟩)
        rw [absent, beq_self_eq_true]
        exact setIdtEntry_self idt i _
      · rw [beq_false_of_ne same, setIdtEntry_of_ne _ same]

theorem setIdtEntry_devices {idt : Nat → IdtDesc} {i : Nat} (default : idt i = defaultEntry i) :
    setIdtEntry (setIdtEntry (setIdtEntry idt (picOffset + 1) .keyboardHandlerWrapper)
      (picOffset + 8) .rtcHandlerWrapper) (picOffset + 0) .pitHandlerWrapper i =
      { defaultEntry i with
        offset :=
          if i = picOffset + 0 then .pitHandlerWrapper
          else if i = picOffset + 1 then .keyboardHandlerWrapper
          else if i = picOffset + 8 then .rtcHandlerWrapper
          else .generalHandlerWrapper } := by
  by_cases pit : i = picOffset + 0
  · subst pit
    rw [setIdtEntry_self, setIdtEntry_of_ne _ (by decide), setIdtEntry_of_ne _ (by decide),
      default, if_pos rfl]
  · rw [setIdtEntry_of_ne _ pit, if_neg pit]
    by_cases rtc : i = picOffset + 8
    · subst rtc
      rw [setIdtEntry_self, setIdtEntry_of_ne _ (by decide), default, if_neg (by decide),
        if_pos rfl]
    · rw [setIdtEntry_of_ne _ rtc]
      by_cases keyboard : i = picOffset + 1
      · subst keyboard
        rw [setIdtEntry_self, default, if_pos rfl]
      · rw [setIdtEntry_of_ne _ keyboard, default, if_neg keyboard, if_neg rtc]
        rfl

theorem exceptionVectors_nodup : (exceptionVectors.map Prod.fst).Nodup := by
  decide

/-- What the table holds, whatever it held before. -/
theorem initializeIdt_eq (idt : Nat → IdtDesc) {i : Nat} (inTable : i < numVec) :
    initializeIdt idt i = { defaultEntry i with offset := installed i } := by
  have looped : forUpTo numVec (fun i idt => Function.update idt i (defaultEntry i)) idt i =
      defaultEntry i := by
    have updates := forUpTo_update defaultEntry idt 0 numVec
    simp only [Nat.add_zero] at updates
    exact (congrFun updates i).trans (if_pos ⟨Nat.zero_le i, inTable⟩)
  unfold initializeIdt
  generalize forUpTo numVec _ idt = filled at looped ⊢
  have listed := foldl_setIdtEntry exceptionVectors_nodup
    (setIdtEntry (setIdtEntry (setIdtEntry filled (picOffset + 1) .keyboardHandlerWrapper)
      (picOffset + 8) .rtcHandlerWrapper) (picOffset + 0) .pitHandlerWrapper) i
  rw [setIdtEntry_devices looped] at listed
  by_cases syscall : i = syscallIndex
  · subst syscall
    rw [setIdtEntry_self, listed]
    rfl
  · rw [setIdtEntry_of_ne _ syscall, listed, installed]
    split <;> rfl

/-! ## The wrappers -/

section Wrappers

open Machine

variable {callees : Callees CFunction} {registers : Registers} {frame : UInt32}
  {machine target : Machine}

/-- The registers are those of the interrupted program before the save and after
the restore, and the save is on the stack in between. -/
structure SavedAt (registers : Registers) (machine : Machine) : Prop where
  outside : machine.pc = 0 ∨ 4 ≤ machine.pc → machine.registers = registers ∧ machine.stack = []
  inside : 0 < machine.pc → machine.pc < 4 → ∃ esp, machine.stack = registers.saved esp
  back : machine.status = .returned → 4 ≤ machine.pc

theorem SavedAt.of_inside {esp : UInt32} (low : 0 < machine.pc) (high : machine.pc < 4)
    (stack : machine.stack = registers.saved esp) (away : machine.status ≠ .returned) :
    SavedAt registers machine where
  outside := fun apart => absurd apart (by omega)
  inside := fun _ _ => ⟨esp, stack⟩
  back := fun returned => absurd returned away

theorem SavedAt.of_outside (apart : 4 ≤ machine.pc) (same : machine.registers = registers)
    (empty : machine.stack = []) : SavedAt registers machine where
  outside := fun _ => ⟨same, empty⟩
  inside := fun _ high => absurd apart (by omega)
  back := fun _ => apart

theorem SavedAt.step {handler : CFunction} {after : List (Instruction CFunction)}
    (quiet : ∀ instruction ∈ after, instruction = .sti) (saved : SavedAt registers machine)
    (stepped : machine.step callees (savingWrapper handler after) = some target) :
    SavedAt registers target := by
  obtain ⟨running, instruction, fetched, performed⟩ := step_fetched stepped
  have still : machine.status ≠ .returned := by
    rw [running]
    decide
  rcases place : machine.pc with _ | _ | _ | _ | past
  all_goals rw [place] at fetched
  · obtain rfl : Instruction.pusha = instruction := Option.some.inj fetched
    obtain rfl := Option.some.inj performed
    obtain ⟨same, empty⟩ := saved.outside (Or.inl place)
    have stack : machine.registers.saved machine.esp ++ machine.stack =
        registers.saved machine.esp := by
      rw [same, empty, List.append_nil]
    exact .of_inside (Nat.succ_pos _) (show machine.pc + 1 < 4 by omega) stack still
  · obtain rfl : Instruction.cld = instruction := Option.some.inj fetched
    obtain rfl := Option.some.inj performed
    obtain ⟨esp, stack⟩ := saved.inside (by omega) (by omega)
    exact .of_inside (Nat.succ_pos _) (show machine.pc + 1 < 4 by omega) stack still
  · obtain rfl : Instruction.call handler = instruction := Option.some.inj fetched
    obtain ⟨esp, stack⟩ := saved.inside (by omega) (by omega)
    simp only [perform] at performed
    split at performed
    · obtain rfl := Option.some.inj performed
      exact .of_inside (Nat.succ_pos _) (show machine.pc + 1 < 4 by omega) stack still
    · obtain rfl := Option.some.inj performed
      exact .of_inside (show 0 < machine.pc by omega) (show machine.pc < 4 by omega) stack
        (show Status.away ≠ .returned by decide)
  · obtain rfl : Instruction.popa = instruction := Option.some.inj fetched
    obtain ⟨esp, stack⟩ := saved.inside (by omega) (by omega)
    simp only [perform, stack, Registers.saved] at performed
    obtain rfl := Option.some.inj performed
    exact .of_outside (show 4 ≤ machine.pc + 1 by omega) rfl rfl
  · obtain ⟨same, empty⟩ := saved.outside (Or.inr (by omega))
    have member : instruction ∈ after ++ [.iret] := List.mem_of_getElem? fetched
    rcases List.mem_append.mp member with listed | last
    · obtain rfl := quiet instruction listed
      obtain rfl := Option.some.inj performed
      exact .of_outside (show 4 ≤ machine.pc + 1 by omega) same empty
    · obtain rfl := List.mem_singleton.mp last
      rw [perform, if_pos empty] at performed
      obtain rfl := Option.some.inj performed
      exact .of_outside (show 4 ≤ machine.pc by omega) same empty

/-- A wrapper that saves all registers restores them. -/
theorem savingWrapper_restores {handler : CFunction} {after : List (Instruction CFunction)}
    (quiet : ∀ instruction ∈ after, instruction = .sti)
    (reached : Reaches callees (savingWrapper handler after) (entered registers frame) machine) :
    machine.dispatched = [] ∧ (machine.status = .returned → machine.registers = registers) := by
  have saved : SavedAt registers machine := by
    induction reached with
    | refl =>
        constructor
        case outside => exact fun _ => ⟨rfl, rfl⟩
        case inside => exact fun positive => nomatch positive
        case back => exact fun returned => nomatch returned
    | tail _ last ih => exact ih.step quiet last
  constructor
  · apply reached.dispatched_eq
    intro register member
    have listed : Instruction.callTable register ∈ after := by
      simpa [savingWrapper] using member
    cases quiet _ listed
  · intro returned
    exact (saved.outside (Or.inr (saved.back returned))).1

/-- So does the wrapper that is left out of the table. -/
theorem generalHandlerWrapperr_restores
    (reached : Reaches callees generalHandlerWrapperr (entered registers frame) machine) :
    machine.dispatched = [] ∧ (machine.status = .returned → machine.registers = registers) :=
  savingWrapper_restores (by simp) reached

/-- An exception handler does not return. -/
theorem exceptionHandler_stays {which : Exception}
    (reached : Reaches callees (exceptionHandler which) (entered registers frame) machine) :
    machine.dispatched = [] ∧ machine.status ≠ .returned := by
  constructor
  · apply reached.dispatched_eq
    intro register member
    simp [exceptionHandler] at member
  · exact reached.not_returned rfl (by simp [exceptionHandler])

/-- The wrapper of the system calls after its pushes, with its last comparison. -/
def pushedMachine (registers : Registers) (frame : UInt32) (pc : Nat) (value : UInt32) : Machine :=
  { pc := pc
    registers := registers
    stack := [registers.ebx, registers.ecx, registers.edx, registers.edi, registers.esi,
      registers.ebp]
    frame := frame
    compared := (int32 registers.eax.toNat, int32 value.toNat)
    dispatched := []
    status := .running }

/-- It has returned without a call. -/
def refusedMachine (registers : Registers) (frame : UInt32) (value : UInt32) : Machine :=
  { pc := 19
    registers := { registers with eax := 0xFFFFFFFF }
    stack := []
    frame := frame
    compared := (int32 registers.eax.toNat, int32 value.toNat)
    dispatched := []
    status := .returned }

theorem int32_eight : int32 (8 : UInt32).toNat = 8 := by
  decide

theorem int32_zero : int32 (0 : UInt32).toNat = 0 := by
  decide

/-- To the first jump. -/
theorem generalHandlerWrapper_first (callees : Callees CFunction) (registers : Registers)
    (frame : UInt32) :
    Reaches callees generalHandlerWrapper (entered registers frame)
      (pushedMachine registers frame 7 8) :=
  reaches_of_steps (n := 7) rfl

/-- To the second jump, if the first is not taken. -/
theorem generalHandlerWrapper_second (callees : Callees CFunction) {registers : Registers}
    (frame : UInt32) (small : int32 registers.eax.toNat ≤ 8) :
    Reaches callees generalHandlerWrapper (entered registers frame)
      (pushedMachine registers frame 9 0) := by
  have notLarge : ¬ int32 registers.eax.toNat > int32 (8 : UInt32).toNat := by
    rw [int32_eight]
    exact Int.not_lt.mpr small
  have jump : (pushedMachine registers frame 7 8).step callees generalHandlerWrapper =
      some (pushedMachine registers frame 8 8) :=
    congrArg some (if_neg notLarge)
  have compared : Reaches callees generalHandlerWrapper (pushedMachine registers frame 8 8)
      (pushedMachine registers frame 9 0) :=
    reaches_of_steps (n := 1) rfl
  exact (generalHandlerWrapper_first callees registers frame).trans (.head jump compared)

/-- A number that is no system call is answered with `-1`. -/
theorem generalHandlerWrapper_refuses (callees : Callees CFunction) {registers : Registers}
    (frame : UInt32) (invalid : 8 < int32 registers.eax.toNat ∨ int32 registers.eax.toNat ≤ 0) :
    ∃ value, Reaches callees generalHandlerWrapper (entered registers frame)
      (refusedMachine registers frame value) := by
  have refused (value : UInt32) : Reaches callees generalHandlerWrapper
      (pushedMachine registers frame 12 value) (refusedMachine registers frame value) :=
    reaches_of_steps (n := 8) rfl
  by_cases large : 8 < int32 registers.eax.toNat
  · have taken : int32 registers.eax.toNat > int32 (8 : UInt32).toNat := by
      rw [int32_eight]
      exact large
    have jump : (pushedMachine registers frame 7 8).step callees generalHandlerWrapper =
        some (pushedMachine registers frame 12 8) :=
      congrArg some (if_pos taken)
    have first := generalHandlerWrapper_first callees registers frame
    exact ⟨8, first.trans (.head jump (refused 8))⟩
  · have taken : int32 registers.eax.toNat ≤ int32 (0 : UInt32).toNat := by
      rw [int32_zero]
      exact invalid.resolve_left large
    have jump : (pushedMachine registers frame 9 0).step callees generalHandlerWrapper =
        some (pushedMachine registers frame 12 0) :=
      congrArg some (if_pos taken)
    have second := generalHandlerWrapper_second callees frame (Int.not_lt.mp large)
    exact ⟨0, second.trans (.head jump (refused 0))⟩

/-- The number of a system call is dispatched. -/
theorem generalHandlerWrapper_dispatches (callees : Callees CFunction) {registers : Registers}
    (frame : UInt32) (small : int32 registers.eax.toNat ≤ 8)
    (positive : 0 < int32 registers.eax.toNat) :
    ∃ machine, Reaches callees generalHandlerWrapper (entered registers frame) machine ∧
      machine.dispatched = [registers.eax.toNat] := by
  have notTaken : ¬ int32 registers.eax.toNat ≤ int32 (0 : UInt32).toNat := by
    rw [int32_zero]
    exact Int.not_le.mpr positive
  have jump : (pushedMachine registers frame 9 0).step callees generalHandlerWrapper =
      some (pushedMachine registers frame 10 0) :=
    congrArg some (if_neg notTaken)
  obtain ⟨target, performed, dispatched⟩ :=
    perform_callTable callees (pushedMachine registers frame 10 0) .eax
  have second := generalHandlerWrapper_second callees frame small
  exact ⟨target, (second.tail jump).tail performed, dispatched⟩

end Wrappers

/-! ## Delivery -/

/-- The code that an interrupt enters, if its entry is present. -/
def delivered (idt : Nat → IdtDesc) (vector : Nat) : Option (List (Instruction CFunction)) :=
  if (idt vector).present = 1 then some (idt vector).offset.code else none

/-- An interrupt calls nothing through the table of system calls, and the program
that it interrupted gets its registers back if it gets the processor back. -/
def Transparent (callees : Callees CFunction) (idt : Nat → IdtDesc) (vector : Nat)
    (registers : Registers) : Prop :=
  ∀ code, delivered idt vector = some code → ∀ frame machine,
    Machine.Reaches callees code (.entered registers frame) machine →
      machine.dispatched = [] ∧ (machine.status = .returned → machine.registers = registers)

/-- An exception, or an interrupt of a device that the kernel uses. -/
def KnownVector (vector : Nat) : Prop :=
  vector < 20 ∨ vector = picOffset + 0 ∨ vector = picOffset + 1 ∨ vector = picOffset + 8

theorem delivered_initializeIdt (idt : Nat → IdtDesc) {vector : Nat} (inTable : vector < numVec) :
    delivered (initializeIdt idt) vector = some (installed vector).code := by
  rw [delivered, initializeIdt_eq idt inTable]
  rfl

/-- The exceptions are the vectors below 20. -/
theorem lookup_exceptionVectors (vector : Nat) :
    (exceptionVectors.lookup vector).isSome = true ↔ vector < 20 := by
  constructor
  · intro listed
    by_contra beyond
    have absent : exceptionVectors.lookup vector = none := by
      rw [List.lookup_eq_none_iff]
      intro entry member
      have below : entry.1 < 20 := by
        revert entry
        decide
      rw [bne_iff_ne]
      omega
    rw [absent] at listed
    cases listed
  · revert vector
    decide

/-- Any other vector has the wrapper of the system calls. -/
theorem installed_of_unknown {vector : Nat} (unknown : ¬ KnownVector vector) :
    installed vector = .generalHandlerWrapper := by
  unfold KnownVector at unknown
  have absent : exceptionVectors.lookup vector = none := by
    rw [← Option.not_isSome_iff_eq_none, lookup_exceptionVectors]
    omega
  rw [installed, absent]
  dsimp only
  rw [if_neg (by omega), if_neg (by omega), if_neg (by omega)]

/-- A known vector is transparent. -/
theorem transparent_of_known (callees : Callees CFunction) (idt : Nat → IdtDesc) {vector : Nat}
    (known : KnownVector vector) (registers : Registers) :
    Transparent callees (initializeIdt idt) vector registers := by
  have inTable : vector < numVec := by
    unfold KnownVector picOffset at known
    unfold numVec
    omega
  intro code entered frame machine reached
  rw [delivered_initializeIdt idt inTable, Option.some.injEq] at entered
  subst entered
  rcases known with exception | rfl | rfl | rfl
  · obtain ⟨which, listed⟩ :=
      Option.isSome_iff_exists.mp ((lookup_exceptionVectors vector).mpr exception)
    rw [installed, listed] at reached
    obtain ⟨silent, stays⟩ := exceptionHandler_stays reached
    exact ⟨silent, fun returned => absurd returned stays⟩
  · exact savingWrapper_restores (by simp) reached
  · exact savingWrapper_restores (by simp) reached
  · exact savingWrapper_restores (by simp) reached

/-- Under the wrapper of the system calls only a program with `-1` in `eax` gets
its registers back without a call. -/
theorem transparent_of_unknown_iff (callees : Callees CFunction) (idt : Nat → IdtDesc)
    {vector : Nat} (inTable : vector < numVec) (unknown : ¬ KnownVector vector)
    (registers : Registers) :
    Transparent callees (initializeIdt idt) vector registers ↔ registers.eax = 0xFFFFFFFF := by
  have code : delivered (initializeIdt idt) vector = some generalHandlerWrapper := by
    rw [delivered_initializeIdt idt inTable, installed_of_unknown unknown]
    rfl
  constructor
  · intro transparent
    have restored := transparent _ code 0
    by_cases invalid : 8 < int32 registers.eax.toNat ∨ int32 registers.eax.toNat ≤ 0
    · obtain ⟨value, refused⟩ := generalHandlerWrapper_refuses callees 0 invalid
      have same := (restored _ refused).2 rfl
      exact (congrArg Registers.eax same).symm
    · obtain ⟨small, positive⟩ := not_or.mp invalid
      obtain ⟨machine, reached, dispatched⟩ := generalHandlerWrapper_dispatches callees 0
        (Int.not_lt.mp small) (Int.not_le.mp positive)
      exact nomatch dispatched.symm.trans (restored machine reached).1
  · intro minusOne other entered frame machine reached
    rw [code, Option.some.injEq] at entered
    subst entered
    have negative : int32 registers.eax.toNat ≤ 0 := by
      rw [minusOne]
      decide
    obtain ⟨value, refused⟩ := generalHandlerWrapper_refuses callees frame (Or.inr negative)
    obtain ⟨silent, last⟩ := refused.before_return rfl rfl reached
    refine ⟨silent, ?_⟩
    intro returned
    rw [last returned, refusedMachine, ← minusOne]

/-- An interrupt is transparent exactly if its vector is known, or the interrupted
program has `-1` in `eax`. -/
theorem interrupt_transparent_iff (callees : Callees CFunction) (idt : Nat → IdtDesc)
    {vector : Nat} (inTable : vector < numVec) (registers : Registers) :
    Transparent callees (initializeIdt idt) vector registers ↔
      KnownVector vector ∨ registers.eax = 0xFFFFFFFF := by
  by_cases known : KnownVector vector
  · exact iff_of_true (transparent_of_known callees idt known registers) (Or.inl known)
  · rw [transparent_of_unknown_iff callees idt inTable known]
    exact (or_iff_right known).symm

/-- C functions that return at once. -/
def idleCallees : Callees CFunction :=
  { function := fun _ registers => some registers
    tableEntry := fun _ registers stack => some (registers, stack) }

/-- A table before its initialization. -/
def emptyIdt : Nat → IdtDesc :=
  fun _ => ⟨.generalHandlerWrapper, 0, 0, 0, 0, 0, 0, 0, 0, 0⟩

/-- The keyboard interrupts a program that is about to call the kernel. -/
theorem interrupt_transparent_keyboard :
    Transparent idleCallees (initializeIdt emptyIdt) 0x21 ⟨4, 2, 3, 1, 0, 0, 0⟩ :=
  (interrupt_transparent_iff idleCallees emptyIdt (by decide) _).mpr
    (Or.inl (Or.inr (Or.inr (Or.inl rfl))))

/-- An interrupt on vector `0x27` makes the system call that the interrupted
program has the number of in `eax`, and overwrites any other number. -/
theorem interrupt_dispatches :
    (∃ machine, Machine.Reaches idleCallees (installed 0x27).code
        (.entered ⟨4, 2, 3, 1, 0, 0, 0⟩ 0) machine ∧ machine.dispatched = [4]) ∧
      ¬ Transparent idleCallees (initializeIdt emptyIdt) 0x27 ⟨4, 2, 3, 1, 0, 0, 0⟩ ∧
      ¬ Transparent idleCallees (initializeIdt emptyIdt) 0x27 ⟨9, 2, 3, 1, 0, 0, 0⟩ := by
  have unknown : ¬ KnownVector 0x27 := by
    unfold KnownVector
    decide
  refine ⟨generalHandlerWrapper_dispatches idleCallees 0 (by decide) (by decide), ?_, ?_⟩
  · rw [transparent_of_unknown_iff idleCallees emptyIdt (by decide) unknown]
    decide
  · rw [transparent_of_unknown_iff idleCallees emptyIdt (by decide) unknown]
    decide

end PonyOS.Interrupt
