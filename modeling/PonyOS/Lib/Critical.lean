import Mathlib.Logic.Function.Basic
import Mathlib.Logic.Relation
import PonyOS.Lib.Transition

/-!
# Critical sections

Code that shares a state with interrupt handlers and with devices.  Each thread
has a stack of codes: an interrupt puts its handler on the stack of the thread
that runs, and a handler may give the processor to another thread.  While the
interrupt flag is off, only the devices move in between.

A contract says what holds of the shared state whenever interrupts are let in.
A code is safe where it leads back there from a shared state, whatever the
devices do between its accesses.  It is open where it may be interrupted at every
point.  If every handler and every call is safe, the contract holds in every
run whenever the flag is on, in whatever order handlers, calls, devices and
threads take turns.
-/

namespace PonyOS.Lib.Critical

open PonyOS.Lib.Transition

universe u v w x y z t i

/-! ## Codes and machines -/

/-- What a thread has still to do, as far as the shared state is concerned. -/
inductive Code (ω : Type u) (ρ : Type v) (Λ : Type w)
  | done
  | cli (next : Code ω ρ Λ)
  | sti (next : Code ω ρ Λ)
  /-- Another thread may get the processor here. -/
  | yield (next : Code ω ρ Λ)
  | perform (access : ω) (next : ρ → Code ω ρ Λ)
  | goto (label : Λ)

/-- The codes of all threads, the innermost of each first. -/
structure Machine (ι : Type i) (σ : Type x) (ω : Type u) (ρ : Type v) (Λ : Type w) where
  shared : σ
  interruptFlag : Bool
  current : ι
  threads : ι → List (Code ω ρ Λ)

/-- Everything that can happen. -/
inductive Event (ι : Type i) (κ : Type y) (ε : Type z)
  /-- The code at hand goes on. -/
  | step
  /-- Another thread gets the processor. -/
  | switch (thread : ι)
  /-- The thread at hand starts a call. -/
  | call (request : κ)
  /-- An interrupt is taken. -/
  | interrupt
  /-- A device moves. -/
  | device (event : ε)

/-- What accesses, labels, interrupts, calls and devices are. -/
structure System (σ : Type x) (ω : Type u) (ρ : Type v) (Λ : Type w) (κ : Type y) (ε : Type z) where
  perform : σ → ω → ρ × σ
  body : Λ → Code ω ρ Λ
  deliver : σ → Option (Code ω ρ Λ × σ)
  entry : κ → Code ω ρ Λ
  device : σ → ε → Option σ

variable {ι : Type i} [DecidableEq ι] {σ : Type x} {ω : Type u} {ρ : Type v} {Λ : Type w}
  {κ : Type y} {ε : Type z} {τ : Type t}

namespace Machine

/-- Another stack for the thread at hand. -/
def put (machine : Machine ι σ ω ρ Λ) (stack : List (Code ω ρ Λ)) : Machine ι σ ω ρ Λ :=
  { machine with threads := Function.update machine.threads machine.current stack }

/-- The stack of the thread at hand. -/
def stack (machine : Machine ι σ ω ρ Λ) : List (Code ω ρ Λ) :=
  machine.threads machine.current

theorem put_current (machine : Machine ι σ ω ρ Λ) (stack : List (Code ω ρ Λ)) :
    (machine.put stack).threads machine.current = stack := by
  simp only [put, Function.update_self]

theorem put_other (machine : Machine ι σ ω ρ Λ) (stack : List (Code ω ρ Λ)) {thread : ι}
    (other : thread ≠ machine.current) :
    (machine.put stack).threads thread = machine.threads thread := by
  simp only [put, Function.update_of_ne other]

end Machine

namespace System

/-- The code at hand goes on.  A handler or a call that is done goes back to code
that ran with interrupts let in. -/
def advance (system : System σ ω ρ Λ κ ε) (machine : Machine ι σ ω ρ Λ) :
    Code ω ρ Λ → List (Code ω ρ Λ) → Machine ι σ ω ρ Λ
  | .done, below => { machine.put below with interruptFlag := true }
  | .cli next, below => { machine.put (next :: below) with interruptFlag := false }
  | .sti next, below => { machine.put (next :: below) with interruptFlag := true }
  | .yield next, below => machine.put (next :: below)
  | .perform access next, below =>
      { machine.put (next (system.perform machine.shared access).1 :: below) with
        shared := (system.perform machine.shared access).2 }
  | .goto label, below => machine.put (system.body label :: below)

/-- One event. -/
def next (system : System σ ω ρ Λ κ ε) : Step (Machine ι σ ω ρ Λ) (Event ι κ ε) Unit
  | machine, .step =>
      match machine.stack with
      | [] => none
      | code :: below => some ((), system.advance machine code below)
  | machine, .switch thread =>
      match machine.stack with
      | .yield next :: below =>
          if machine.interruptFlag then none
          else some ((), { machine.put (next :: below) with current := thread })
      | _ => none
  | machine, .call request =>
      match machine.stack, machine.interruptFlag with
      | [], true => some ((), { machine.put [system.entry request] with interruptFlag := false })
      | _, _ => none
  | machine, .interrupt =>
      if machine.interruptFlag then
        (system.deliver machine.shared).map fun outcome =>
          ((), { machine.put (outcome.1 :: machine.stack) with
            shared := outcome.2
            interruptFlag := false })
      else none
  | machine, .device event =>
      (system.device machine.shared event).map fun shared =>
        ((), { machine with shared := shared })

/-- A list of events, one after the other. -/
def follow (system : System σ ω ρ Λ κ ε) :
    List (Event ι κ ε) → Machine ι σ ω ρ Λ → Option (Machine ι σ ω ρ Λ)
  | [], machine => some machine
  | event :: rest, machine =>
      (system.next machine event).bind fun outcome => system.follow rest outcome.2

/-- What follows a list of events is reached by a run. -/
theorem run_of_follow {system : System σ ω ρ Λ κ ε} {events : List (Event ι κ ε)}
    {machine target : Machine ι σ ω ρ Λ} (followed : system.follow events machine = some target) :
    Run system.next machine (events.map fun event => (event, ())) target := by
  induction events generalizing machine with
  | nil =>
      rcases Option.some.inj followed with rfl
      exact .nil machine
  | cons event rest ih =>
      rcases Option.bind_eq_some_iff.mp followed with ⟨outcome, step, rest⟩
      exact .cons trivial step (ih rest)

end System

/-! ## Contracts -/

/-- What holds while interrupts are let in and what holds at a label, by a state
that is observed from the calls and the devices; and the labels that may be
interrupted. -/
structure Contract (σ : Type x) (Λ : Type w) (κ : Type y) (ε : Type z) (τ : Type t) where
  good : τ → σ → Prop
  atLabel : Λ → τ → σ → Prop
  isOpen : Λ → Prop
  noteCall : τ → κ → τ
  noteDevice : τ → ε → τ

namespace Contract

/-- What is observed of an event. -/
def observe (contract : Contract σ Λ κ ε τ) : τ → Event ι κ ε → Unit → τ
  | seen, .call request, _ => contract.noteCall seen request
  | seen, .device event, _ => contract.noteDevice seen event
  | seen, _, _ => seen

/-- The devices moved, any number of times. -/
def Disturbed (contract : Contract σ Λ κ ε τ) (system : System σ ω ρ Λ κ ε) :
    τ × σ → τ × σ → Prop :=
  Relation.ReflTransGen fun before after =>
    ∃ event, system.device before.2 event = some after.2 ∧
      after.1 = contract.noteDevice before.1 event

mutual

/-- With interrupts off, the code leads back to where they may be let in. -/
def Safe (contract : Contract σ Λ κ ε τ) (system : System σ ω ρ Λ κ ε) :
    Code ω ρ Λ → τ → σ → Prop
  | .done, seen, shared => contract.good seen shared
  | .cli next, seen, shared => contract.Safe system next seen shared
  | .sti next, seen, shared => contract.good seen shared ∧ contract.Open system next
  | .yield next, seen, shared =>
      contract.good seen shared ∧
        ∀ seen shared, contract.good seen shared → contract.Safe system next seen shared
  | .perform access next, seen, shared =>
      ∀ after : τ × σ, contract.Disturbed system (seen, shared) after →
        contract.Safe system (next (system.perform after.2 access).1) after.1
          (system.perform after.2 access).2
  | .goto label, seen, shared => contract.atLabel label seen shared

/-- With interrupts let in, the code may be interrupted at every point. -/
def Open (contract : Contract σ Λ κ ε τ) (system : System σ ω ρ Λ κ ε) :
    Code ω ρ Λ → Prop
  | .done => True
  | .cli next =>
      ∀ seen shared, contract.good seen shared → contract.Safe system next seen shared
  | .sti next => contract.Open system next
  | .yield _ => False
  | .perform access next =>
      ∀ seen shared, contract.good seen shared →
        contract.good seen (system.perform shared access).2 ∧
          contract.Open system (next (system.perform shared access).1)
  | .goto label => contract.isOpen label

end

/-- What is to be shown of a system: the devices do not disturb a contract,
what holds at a label makes its body safe, and handlers and calls are safe. -/
structure Verified (contract : Contract σ Λ κ ε τ) (system : System σ ω ρ Λ κ ε) : Prop where
  device : ∀ {seen shared event after}, contract.good seen shared →
    system.device shared event = some after →
    contract.good (contract.noteDevice seen event) after
  deviceLabel : ∀ {label seen shared event after}, contract.atLabel label seen shared →
    system.device shared event = some after →
    contract.atLabel label (contract.noteDevice seen event) after
  body : ∀ {label seen shared}, contract.atLabel label seen shared →
    contract.Safe system (system.body label) seen shared
  bodyOpen : ∀ {label}, contract.isOpen label → contract.Open system (system.body label)
  deliver : ∀ {seen shared handler after}, contract.good seen shared →
    system.deliver shared = some (handler, after) → contract.Safe system handler seen after
  entry : ∀ {seen shared} (request : κ), contract.good seen shared →
    contract.Safe system (system.entry request) (contract.noteCall seen request) shared

/-- The stack of the thread at hand. -/
def Stacked (contract : Contract σ Λ κ ε τ) (system : System σ ω ρ Λ κ ε) (seen : τ)
    (shared : σ) : Bool → List (Code ω ρ Λ) → Prop
  | _, [] => contract.good seen shared
  | true, code :: below =>
      contract.good seen shared ∧ contract.Open system code ∧
        ∀ lower ∈ below, contract.Open system lower
  | false, code :: below =>
      contract.Safe system code seen shared ∧ ∀ lower ∈ below, contract.Open system lower

/-- The stack of a thread that waits for the processor. -/
def Suspended (contract : Contract σ Λ κ ε τ) (system : System σ ω ρ Λ κ ε) :
    List (Code ω ρ Λ) → Prop
  | [] => True
  | code :: below =>
      (∀ seen shared, contract.good seen shared → contract.Safe system code seen shared) ∧
        ∀ lower ∈ below, contract.Open system lower

/-- Every stack is as it should be. -/
structure Sound (contract : Contract σ Λ κ ε τ) (system : System σ ω ρ Λ κ ε) (seen : τ)
    (machine : Machine ι σ ω ρ Λ) : Prop where
  stacked : contract.Stacked system seen machine.shared machine.interruptFlag machine.stack
  suspended : ∀ thread, thread ≠ machine.current →
    contract.Suspended system (machine.threads thread)

variable {contract : Contract σ Λ κ ε τ} {system : System σ ω ρ Λ κ ε} {seen : τ}
  {shared after : σ} {code : Code ω ρ Λ} {below : List (Code ω ρ Λ)}

/-- The devices do not disturb a safe code. -/
theorem Verified.safe_device (verified : contract.Verified system) {event : ε}
    (safe : contract.Safe system code seen shared)
    (moved : system.device shared event = some after) :
    contract.Safe system code (contract.noteDevice seen event) after := by
  induction code with
  | done => exact verified.device safe moved
  | cli next ih => exact ih safe
  | sti next _ => exact ⟨verified.device safe.1 moved, safe.2⟩
  | yield next _ => exact ⟨verified.device safe.1 moved, safe.2⟩
  | perform access next _ =>
      intro later disturbed
      exact safe later (.head ⟨event, moved, rfl⟩ disturbed)
  | goto label => exact verified.deviceLabel safe moved

/-- An assertion that the devices do not disturb. -/
def Stable (contract : Contract σ Λ κ ε τ) (system : System σ ω ρ Λ κ ε)
    (assertion : τ → σ → Prop) : Prop :=
  ∀ {seen shared event after}, assertion seen shared →
    system.device shared event = some after →
    assertion (contract.noteDevice seen event) after

/-- The rule of an access: what holds before it is stable, and what it makes of
that is safe for the rest. -/
theorem safe_perform {before : τ → σ → Prop} (behind : ρ → τ → σ → Prop) {access : ω}
    {next : ρ → Code ω ρ Λ} (stable : contract.Stable system before)
    (performed : ∀ {seen shared}, before seen shared →
      behind (system.perform shared access).1 seen (system.perform shared access).2)
    (rest : ∀ value {seen shared}, behind value seen shared →
      contract.Safe system (next value) seen shared)
    (holds : before seen shared) : contract.Safe system (.perform access next) seen shared := by
  intro after disturbed
  have still : before after.1 after.2 := by
    induction disturbed with
    | refl => exact holds
    | tail _ moved ih =>
        rcases moved with ⟨event, moved, noted⟩
        rw [noted]
        exact stable ih moved
  exact rest _ (performed still)

/-- Where interrupts are let in, the contract holds. -/
theorem good_of_stacked {stack : List (Code ω ρ Λ)}
    (stacked : contract.Stacked system seen shared true stack) : contract.good seen shared := by
  cases stack with
  | nil => exact stacked
  | cons code below => exact stacked.1

/-- Codes that may be interrupted, with interrupts let in. -/
theorem stacked_of_open {stack : List (Code ω ρ Λ)} (good : contract.good seen shared)
    (isOpen : ∀ code ∈ stack, contract.Open system code) :
    contract.Stacked system seen shared true stack := by
  cases stack with
  | nil => exact good
  | cons code below =>
      exact ⟨good, isOpen code List.mem_cons_self,
        fun lower member => isOpen lower (List.mem_cons_of_mem code member)⟩

/-- With interrupts let in, every code on the stack may be interrupted. -/
theorem open_of_stacked {stack : List (Code ω ρ Λ)}
    (stacked : contract.Stacked system seen shared true stack) :
    ∀ code ∈ stack, contract.Open system code := by
  cases stack with
  | nil => exact fun code member => absurd member List.not_mem_nil
  | cons top below =>
      intro code member
      rcases List.mem_cons.mp member with rfl | member
      · exact stacked.2.1
      · exact stacked.2.2 code member

theorem Verified.stacked_device (verified : contract.Verified system) {event : ε} {flag : Bool}
    {stack : List (Code ω ρ Λ)} (stacked : contract.Stacked system seen shared flag stack)
    (moved : system.device shared event = some after) :
    contract.Stacked system (contract.noteDevice seen event) after flag stack := by
  cases stack with
  | nil => cases flag <;> exact verified.device stacked moved
  | cons code below =>
      cases flag with
      | true => exact ⟨verified.device stacked.1 moved, stacked.2⟩
      | false => exact ⟨verified.safe_device stacked.1 moved, stacked.2⟩

/-! ## Runs -/

variable {machine target : Machine ι σ ω ρ Λ} {event : Event ι κ ε}

/-- Another stack for the thread at hand leaves the others alone. -/
theorem Sound.of_put (sound : contract.Sound system seen machine) {later : τ}
    {stack : List (Code ω ρ Λ)} (threads : target.threads = (machine.put stack).threads)
    (current : target.current = machine.current)
    (stacked : contract.Stacked system later target.shared target.interruptFlag stack) :
    contract.Sound system later target := by
  constructor
  · rw [Machine.stack, threads, current, Machine.put_current]
    exact stacked
  · intro thread other
    rw [current] at other
    rw [threads, Machine.put_other machine stack other]
    exact sound.suspended thread other

theorem Verified.sound_advance (verified : contract.Verified system)
    (sound : contract.Sound system seen machine) (atHand : machine.stack = code :: below) :
    contract.Sound system seen (system.advance machine code below) := by
  have stacked := sound.stacked
  rw [atHand] at stacked
  have lower : ∀ lower ∈ below, contract.Open system lower := by
    cases flag : machine.interruptFlag with
    | true =>
        rw [flag] at stacked
        exact stacked.2.2
    | false =>
        rw [flag] at stacked
        exact stacked.2
  cases flag : machine.interruptFlag with
  | true =>
      rw [flag] at stacked
      rcases stacked with ⟨good, isOpen, _⟩
      cases code with
      | done => exact sound.of_put rfl rfl (stacked_of_open good lower)
      | cli next => exact sound.of_put rfl rfl ⟨isOpen seen machine.shared good, lower⟩
      | sti next => exact sound.of_put rfl rfl ⟨good, isOpen, lower⟩
      | yield next => exact absurd isOpen id
      | perform access next =>
          rcases isOpen seen machine.shared good with ⟨still, rest⟩
          refine sound.of_put rfl rfl ?_
          simp only [System.advance, flag, Machine.put]
          exact ⟨still, rest, lower⟩
      | goto label =>
          refine sound.of_put rfl rfl ?_
          simp only [System.advance, flag, Machine.put]
          exact ⟨good, verified.bodyOpen isOpen, lower⟩
  | false =>
      rw [flag] at stacked
      have safe := stacked.1
      cases code with
      | done => exact sound.of_put rfl rfl (stacked_of_open safe lower)
      | cli next => exact sound.of_put rfl rfl ⟨safe, lower⟩
      | sti next => exact sound.of_put rfl rfl ⟨safe.1, safe.2, lower⟩
      | yield next =>
          refine sound.of_put rfl rfl ?_
          simp only [System.advance, flag, Machine.put]
          exact ⟨safe.2 seen machine.shared safe.1, lower⟩
      | perform access next =>
          refine sound.of_put rfl rfl ?_
          simp only [System.advance, flag, Machine.put]
          exact ⟨safe (seen, machine.shared) .refl, lower⟩
      | goto label =>
          refine sound.of_put rfl rfl ?_
          simp only [System.advance, flag, Machine.put]
          exact ⟨verified.body safe, lower⟩

theorem Sound.switched (sound : contract.Sound system seen machine)
    (flag : machine.interruptFlag = false) (good : contract.good seen machine.shared)
    {stack : List (Code ω ρ Λ)} (suspended : contract.Suspended system stack) (thread : ι) :
    contract.Sound system seen { machine.put stack with current := thread } := by
  have all : ∀ other, contract.Suspended system ((machine.put stack).threads other) := by
    intro other
    by_cases same : other = machine.current
    · subst same
      rw [Machine.put_current]
      exact suspended
    · rw [Machine.put_other machine stack same]
      exact sound.suspended other same
  refine ⟨?_, fun other _ => all other⟩
  have resumed := all thread
  simp only [Machine.stack]
  generalize (machine.put stack).threads thread = waiting at resumed ⊢
  rw [show (machine.put stack).interruptFlag = false from flag]
  cases waiting with
  | nil => exact good
  | cons code below => exact ⟨resumed.1 seen machine.shared good, resumed.2⟩

theorem Verified.sound_next (verified : contract.Verified system)
    (sound : contract.Sound system seen machine) {reply : Unit}
    (step : system.next machine event = some (reply, target)) :
    contract.Sound system (contract.observe seen event reply) target := by
  have stacked := sound.stacked
  cases event with
  | step =>
      simp only [System.next] at step
      cases atHand : machine.stack with
      | nil =>
          rw [atHand] at step
          contradiction
      | cons code below =>
          rw [atHand] at step
          rcases Prod.mk.inj (Option.some.inj step) with ⟨_, rfl⟩
          exact verified.sound_advance sound atHand
  | switch thread =>
      simp only [System.next] at step
      split at step
      · rename_i next below atHand
        split at step
        · contradiction
        · rename_i off
          rcases Prod.mk.inj (Option.some.inj step) with ⟨_, rfl⟩
          have flag : machine.interruptFlag = false := Bool.eq_false_iff.mpr off
          rw [atHand, flag] at stacked
          rcases stacked with ⟨⟨good, resumed⟩, lower⟩
          have suspended : contract.Suspended system (next :: below) := ⟨resumed, lower⟩
          exact sound.switched flag good suspended thread
      · contradiction
  | call request =>
      simp only [System.next] at step
      split at step
      · rename_i atHand flag
        rcases Prod.mk.inj (Option.some.inj step) with ⟨_, rfl⟩
        rw [atHand] at stacked
        exact sound.of_put rfl rfl
          ⟨verified.entry request stacked, fun lower member => absurd member List.not_mem_nil⟩
      · contradiction
  | interrupt =>
      simp only [System.next] at step
      split at step
      · rename_i flag
        rcases Option.map_eq_some_iff.mp step with ⟨⟨handler, shared⟩, delivered, outcome⟩
        rcases Prod.mk.inj outcome with ⟨_, rfl⟩
        rw [flag] at stacked
        have good := good_of_stacked stacked
        exact sound.of_put rfl rfl ⟨verified.deliver good delivered, open_of_stacked stacked⟩
      · contradiction
  | device event =>
      rcases Option.map_eq_some_iff.mp step with ⟨shared, moved, outcome⟩
      rcases Prod.mk.inj outcome with ⟨_, rfl⟩
      exact ⟨verified.stacked_device stacked moved, sound.suspended⟩

/-- Whatever happens, in whatever order, the contract holds whenever interrupts
are let in. -/
theorem Verified.run (verified : contract.Verified system)
    {trace : List (Event ι κ ε × Unit)} (run : Run system.next machine trace target)
    (sound : contract.Sound system seen machine) :
    contract.Sound system (observed contract.observe seen trace) target := by
  have allowed := follows_any contract.observe seen trace
  have simulated := @GuardedRun.simulation _ _ _ system.next anyStep _ contract.observe _
    (fun _ _ _ => True) (fun machine seen => contract.Sound system seen machine)
    (fun sound _ _ step => ⟨trivial, verified.sound_next sound step⟩) _ _ _ _ run allowed sound
  exact simulated.2

omit [DecidableEq ι] in
theorem Sound.good (sound : contract.Sound system seen machine)
    (flag : machine.interruptFlag = true) : contract.good seen machine.shared := by
  have stacked := sound.stacked
  rw [flag] at stacked
  exact good_of_stacked stacked

end Contract

end PonyOS.Lib.Critical
