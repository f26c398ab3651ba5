import Mathlib.Data.List.Basic
import Mathlib.Data.List.Induction
import Mathlib.Logic.Basic

/-!
# Labelled partial transitions

A system is an option-valued step that consumes one event and emits one reply.
Failure is literal undefinedness: a faulting or disabled event has no
successor, and no run continues past it.  A run records every event together
with the reply it produced.

A guard is a condition on the state before a step, the event and the reply.
Guarded runs are the runs all of whose steps meet the guard; the unguarded
notion is the special case of the trivial guard.
-/

namespace PonyOS.Lib.Transition

universe u v w x y

/-- A partial transition labelled by an event and answered by a reply. -/
abbrev Step (σ : Type u) (ε : Type v) (ρ : Type w) :=
  σ → ε → Option (ρ × σ)

/-- Runs of a step all of whose transitions meet a guard, with their trace. -/
inductive GuardedRun {σ : Type u} {ε : Type v} {ρ : Type w}
    (next : Step σ ε ρ) (guard : σ → ε → ρ → Prop) :
    σ → List (ε × ρ) → σ → Prop
  | nil (state : σ) : GuardedRun next guard state [] state
  | cons {state middle target : σ} {event : ε} {reply : ρ}
      {rest : List (ε × ρ)} :
      guard state event reply →
      next state event = some (reply, middle) →
      GuardedRun next guard middle rest target →
      GuardedRun next guard state ((event, reply) :: rest) target

/-- The guard that every transition meets. -/
def anyStep {σ : Type u} {ε : Type v} {ρ : Type w} : σ → ε → ρ → Prop :=
  fun _ _ _ => True

/-- Unrestricted runs. -/
abbrev Run {σ : Type u} {ε : Type v} {ρ : Type w} (next : Step σ ε ρ) :=
  GuardedRun next anyStep

variable {σ : Type u} {ε : Type v} {ρ : Type w}
  {next : Step σ ε ρ} {guard : σ → ε → ρ → Prop}

/-- Invariant rule: what one guarded transition preserves, a run preserves. -/
theorem GuardedRun.invariant {P : σ → Prop}
    (preserved : ∀ {state event reply target}, P state →
      guard state event reply → next state event = some (reply, target) →
      P target)
    {source target : σ} {trace : List (ε × ρ)}
    (run : GuardedRun next guard source trace target) (initial : P source) :
    P target := by
  induction run with
  | nil state => exact initial
  | cons allowed step _ ih => exact ih (preserved initial allowed step)

/-- A guarded run meets every weaker guard. -/
theorem GuardedRun.mono {weaker : σ → ε → ρ → Prop}
    (weakens : ∀ state event reply, guard state event reply → weaker state event reply)
    {source target : σ} {trace : List (ε × ρ)}
    (run : GuardedRun next guard source trace target) :
    GuardedRun next weaker source trace target := by
  induction run with
  | nil state => exact .nil state
  | cons allowed step _ ih => exact .cons (weakens _ _ _ allowed) step ih

theorem GuardedRun.unguarded {source target : σ} {trace : List (ε × ρ)}
    (run : GuardedRun next guard source trace target) : Run next source trace target :=
  run.mono fun _ _ _ _ => trivial

/-- Invariant rule with history: the predicate may mention the trace emitted
so far. -/
theorem GuardedRun.historyInvariant {P : List (ε × ρ) → σ → Prop}
    (preserved : ∀ {history state event reply target}, P history state →
      guard state event reply → next state event = some (reply, target) →
      P (history ++ [(event, reply)]) target)
    {source target : σ} {trace history : List (ε × ρ)}
    (run : GuardedRun next guard source trace target)
    (initial : P history source) : P (history ++ trace) target := by
  induction run generalizing history with
  | nil state => simpa using initial
  | cons allowed step _ ih =>
      simpa using ih (preserved initial allowed step)

/-- The replies to a list of events, one after the other, and the state reached. -/
def perform (next : Step σ ε ρ) : σ → List ε → Option (List ρ × σ)
  | state, [] => some ([], state)
  | state, event :: rest =>
      (next state event).bind fun outcome =>
        (perform next outcome.2 rest).map fun later => (outcome.1 :: later.1, later.2)

/-- What a list of events performs is a run. -/
theorem run_of_perform {events : List ε} {replies : List ρ} {source target : σ}
    (performed : perform next source events = some (replies, target)) :
    Run next source (events.zip replies) target := by
  induction events generalizing source replies with
  | nil =>
      cases performed
      exact .nil _
  | cons event rest ih =>
      rcases Option.bind_eq_some_iff.mp performed with ⟨outcome, step, later⟩
      rcases Option.map_eq_some_iff.mp later with ⟨after, followed, same⟩
      cases same
      exact .cons trivial step (ih followed)

/-! ## Past steps -/

/-- A run extended by one more step. -/
theorem GuardedRun.snoc {source middle target : σ} {trace : List (ε × ρ)} {event : ε} {reply : ρ}
    (run : GuardedRun next guard source trace middle) (allowed : guard middle event reply)
    (step : next middle event = some (reply, target)) :
    GuardedRun next guard source (trace ++ [(event, reply)]) target := by
  induction run with
  | nil state => exact .cons allowed step (.nil target)
  | cons guarded first _ ih => exact .cons guarded first (ih allowed step)

/-- Some step of a run met `made`, and every step after it met `kept`. -/
def Since (next : Step σ ε ρ) (made kept : σ → ε → ρ → Prop) (source : σ)
    (trace : List (ε × ρ)) (target : σ) : Prop :=
  ∃ first rest before after event reply, trace = first ++ (event, reply) :: rest ∧
    Run next source first before ∧ made before event reply ∧
    next before event = some (reply, after) ∧ GuardedRun next kept after rest target

section Past

variable {made kept : σ → ε → ρ → Prop} {source middle target : σ} {trace : List (ε × ρ)}
  {event : ε} {reply : ρ}

theorem Since.now (run : Run next source trace middle) (isMade : made middle event reply)
    (step : next middle event = some (reply, target)) :
    Since next made kept source (trace ++ [(event, reply)]) target :=
  ⟨trace, [], middle, target, event, reply, rfl, run, isMade, step, .nil target⟩

theorem Since.later (since : Since next made kept source trace middle)
    (isKept : kept middle event reply) (step : next middle event = some (reply, target)) :
    Since next made kept source (trace ++ [(event, reply)]) target := by
  obtain ⟨first, rest, before, after, past, answer, rfl, run, isMade, pastStep, later⟩ := since
  refine ⟨first, rest ++ [(event, reply)], before, after, past, answer, ?_, run, isMade,
    pastStep, later.snoc isKept step⟩
  rw [List.append_assoc, List.cons_append]

/-- What the step established and the later steps preserve still holds. -/
theorem Since.holds {P : σ → Prop}
    (established : ∀ {history state event reply target}, Run next source history state →
      made state event reply → next state event = some (reply, target) → P target)
    (preserved : ∀ {state event reply target}, P state → kept state event reply →
      next state event = some (reply, target) → P target)
    (since : Since next made kept source trace target) : P target := by
  obtain ⟨first, rest, before, after, past, answer, -, run, isMade, pastStep, later⟩ := since
  apply later.invariant _ (established run isMade pastStep)
  intro state event reply target held isKept step
  exact preserved held isKept step

end Past

/-! ## Observers

An observer computes a state of its own from the trace, event by event.  A
specification says what each reply may be for the state observed so far. -/

section Observers

variable {τ : Type x} (observe : τ → ε → ρ → τ)

/-- Every transition of a trace meets a specification over the observed state. -/
def Follows (spec : τ → ε → ρ → Prop) : τ → List (ε × ρ) → Prop
  | _, [] => True
  | seen, (event, reply) :: rest =>
      spec seen event reply ∧ Follows spec (observe seen event reply) rest

/-- The state observed after a trace. -/
def observed (seen : τ) (trace : List (ε × ρ)) : τ :=
  trace.foldl (fun seen step => observe seen step.1 step.2) seen

theorem follows_any (seen : τ) (trace : List (ε × ρ)) :
    Follows observe (fun _ _ _ => True) seen trace := by
  induction trace generalizing seen with
  | nil => trivial
  | cons step rest ih => exact ⟨trivial, ih _⟩

variable {observe}

/-- Simulation rule: a relation to the observed state that every allowed
transition keeps carries the specification along every run. -/
theorem GuardedRun.simulation {condition : τ → ε → ρ → Prop} (spec : τ → ε → ρ → Prop)
    (R : σ → τ → Prop)
    (preserved : ∀ {state seen event reply target}, R state seen →
      guard state event reply → condition seen event reply →
      next state event = some (reply, target) →
      spec seen event reply ∧ R target (observe seen event reply))
    {source target : σ} {seen : τ} {trace : List (ε × ρ)}
    (run : GuardedRun next guard source trace target)
    (allowed : Follows observe condition seen trace) (initial : R source seen) :
    Follows observe spec seen trace ∧ R target (observed observe seen trace) := by
  induction run generalizing seen with
  | nil state => exact ⟨trivial, initial⟩
  | cons guarded step _ ih =>
      obtain ⟨here, later⟩ := allowed
      obtain ⟨meets, related⟩ := preserved initial guarded here step
      obtain ⟨restMeets, final⟩ := ih later related
      exact ⟨⟨meets, restMeets⟩, final⟩

end Observers

/-! ## Two runs side by side -/

/-- Outcomes that show the same reply and leave related states; one is undefined
only if the other is. -/
def SameOutcome (R : σ → σ → Prop) : Option (ρ × σ) → Option (ρ × σ) → Prop :=
  Option.Rel fun left right => left.1 = right.1 ∧ R left.2 right.2

/-- Replies may be relabelled. -/
theorem SameOutcome.map {κ : Type x} {R : σ → σ → Prop} {left right : Option (ρ × σ)}
    (same : SameOutcome R left right) (label : ρ → κ) :
    SameOutcome R (left.map fun outcome => (label outcome.1, outcome.2))
      (right.map fun outcome => (label outcome.1, outcome.2)) := by
  cases same with
  | some both => exact .some ⟨congrArg label both.1, both.2⟩
  | none => exact .none

/-- A step that is shown two events and takes the first. -/
def firstOf (next : Step σ ε ρ) : Step σ (ε × ε) ρ :=
  fun state events => next state events.1

/-- The same replies to the second events. -/
def secondOf (trace : List ((ε × ε) × ρ)) : List (ε × ρ) :=
  trace.map fun step => (step.1.2, step.2)

/-- Bisimulation rule: where related states answer every allowed pair of events
alike, a run over the first events is matched, reply for reply, by a run over the
second ones. -/
theorem GuardedRun.transfer {R : σ → σ → Prop} {paired : σ → ε × ε → ρ → Prop}
    (answered : ∀ {left right events reply}, R left right → paired left events reply →
      SameOutcome R (next left events.1) (next right events.2))
    {left right target : σ} {trace : List ((ε × ε) × ρ)}
    (run : GuardedRun (firstOf next) paired left trace target) (related : R left right) :
    ∃ other, Run next right (secondOf trace) other ∧ R target other := by
  induction run generalizing right with
  | nil state => exact ⟨right, .nil right, related⟩
  | @cons state middle target events reply rest allowed step _ ih =>
      have same := answered related allowed
      rw [firstOf] at step
      rw [step] at same
      generalize rightEq : next right events.2 = outcome at same
      cases same with
      | some both =>
          obtain ⟨other, matched, final⟩ := ih both.2
          refine ⟨other, .cons trivial ?_ matched, final⟩
          rw [rightEq]
          exact congrArg some (Prod.ext both.1.symm rfl)

/-! ## Total systems -/

/-- Simulation rule for total systems: an abstraction that commutes with every
single step, on states satisfying an invariant, commutes with every run. -/
theorem foldl_simulation {τ : Type x} {α : Type y} (concrete : σ → α → σ)
    (abstract : τ → α → τ) (view : σ → τ) (Inv : σ → Prop)
    (preserved : ∀ state event, Inv state → Inv (concrete state event))
    (commutes : ∀ state event, Inv state →
      view (concrete state event) = abstract (view state) event)
    (events : List α) (state : σ) (initial : Inv state) :
    Inv (events.foldl concrete state) ∧
      view (events.foldl concrete state) =
        events.foldl abstract (view state) := by
  induction events generalizing state with
  | nil => exact ⟨initial, rfl⟩
  | cons event rest ih =>
      have tail := ih (concrete state event) (preserved state event initial)
      simp only [List.foldl_cons]
      rw [commutes state event initial] at tail
      exact tail

/-- Exact guard rule for two total systems side by side: where a step keeps a
relation between them exactly if the second one meets a guard, all states of a
run are related exactly if all its steps meet the guard. -/
theorem foldl_relation_iff {τ : Type x} {α : Type y} (concrete : σ → α → σ)
    (abstract : τ → α → τ) (R : σ → τ → Prop) (guard : τ → α → Prop)
    (kept : ∀ state view event, R state view →
      (R (concrete state event) (abstract view event) ↔ guard view event))
    (state : σ) (view : τ) (initial : R state view) (events : List α) :
    (∀ before, before <+: events →
        R (before.foldl concrete state) (before.foldl abstract view)) ↔
      ∀ before event, before ++ [event] <+: events →
        guard (before.foldl abstract view) event := by
  constructor
  · intro holds before event isPrefix
    have reached := holds before ((List.prefix_append before [event]).trans isPrefix)
    have next := holds (before ++ [event]) isPrefix
    rw [List.foldl_append, List.foldl_append] at next
    exact (kept _ _ event reached).mp next
  · intro allowed before
    induction before using List.reverseRecOn with
    | nil => exact fun _ => initial
    | append_singleton before event ih =>
        intro isPrefix
        rw [List.foldl_append, List.foldl_append]
        apply (kept _ _ event _).mpr (allowed before event isPrefix)
        exact ih ((List.prefix_append before [event]).trans isPrefix)

/-- Exact guard rule for one total system. -/
theorem foldl_invariant_iff {α : Type y} (step : σ → α → σ) (Inv : σ → Prop)
    (guard : σ → α → Prop)
    (kept : ∀ state event, Inv state → (Inv (step state event) ↔ guard state event))
    (state : σ) (initial : Inv state) (events : List α) :
    (∀ before, before <+: events → Inv (before.foldl step state)) ↔
      ∀ before event, before ++ [event] <+: events → guard (before.foldl step state) event :=
  foldl_relation_iff step step (fun _ state => Inv state) guard
    (fun _ state event => kept state event) state state initial events

end PonyOS.Lib.Transition
