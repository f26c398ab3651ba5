import PonyOS.Lib.Transition
import PonyOS.Syscall.Calls

/-!
# Waiting for a tick

The interrupt of the clock sets one flag, and every `rtc_read` tests that flag in
a loop, clears it and returns.  Test and clear are steps of their own here, so
ticks and the steps of other calls fall between them.  A tick that came before a
call is still in the flag, and a clear takes the tick away from the calls that
have not tested yet.
-/

namespace PonyOS.Clock

open PonyOS.Lib.Transition
open PonyOS.Process
open PonyOS.Syscall

universe u

/-! ## The machine -/

/-- Where a process is in `rtc_read`. -/
inductive Reading where
  | idle
  | testing
  | clearing
deriving DecidableEq, Repr

/-- The flag of the driver and the calls of the processes. -/
structure ClockState (ι : Type u) where
  nextInterrupt : Bool
  calls : ι → Reading

/-- The steps of the clock and of the calls. -/
inductive ClockEvent (ι : Type u) where
  | interrupt
  | call (p : ι)
  | test (p : ι)
  | clear (p : ι)

variable {ι : Type u} [DecidableEq ι]

/-- One step, with what `rtc_read` returns.  A step that the process is not at
has no successor. -/
def clockStep : Step (ClockState ι) (ClockEvent ι) (Option Int)
  | state, .interrupt => some (none, { state with nextInterrupt := true })
  | state, .call p =>
      if state.calls p = .idle then
        some (none, { state with calls := Function.update state.calls p .testing })
      else none
  | state, .test p =>
      if state.calls p = .testing then
        -- `while(next_interrupt == 0 ) {};` goes on with the next test.
        if state.nextInterrupt then
          some (none, { state with calls := Function.update state.calls p .clearing })
        else some (none, state)
      else none
  | state, .clear p =>
      if state.calls p = .clearing then
        some (some 0,
          { nextInterrupt := false, calls := Function.update state.calls p .idle })
      else none

/-- After `rtc_init`, without any call. -/
def ClockState.boot : ClockState ι :=
  { nextInterrupt := false, calls := fun _ => .idle }

/-- The call of a process in one piece is its test and its clear. -/
theorem rtcRead_run {kernel : Kernel} {attempt : Attempt} {calls : ι → Reading} {p : ι}
    (returned : rtcRead kernel = some attempt) (waits : calls p = .testing) :
    Run clockStep { nextInterrupt := kernel.nextInterrupt, calls := calls }
      [(.test p, none), (.clear p, some attempt.value)]
      ⟨attempt.kernel.nextInterrupt, Function.update calls p .idle⟩ := by
  unfold rtcRead at returned
  split at returned
  · rename_i flag
    obtain rfl := Option.some.inj returned
    have tested :
        clockStep { nextInterrupt := kernel.nextInterrupt, calls := calls } (.test p) =
          some (none, ⟨kernel.nextInterrupt, Function.update calls p .clearing⟩) := by
      simp [clockStep, waits, flag]
    have cleared :
        clockStep ⟨kernel.nextInterrupt, Function.update calls p .clearing⟩ (.clear p) =
          some (some 0, ⟨false, Function.update calls p .idle⟩) := by
      simp [clockStep]
    exact .cons trivial tested (.cons trivial cleared (.nil _))
  · cases returned

/-- What one step does. -/
inductive ClockStepped (state target : ClockState ι) : ClockEvent ι → Option Int → Prop
  | interrupt : target = { state with nextInterrupt := true } →
      ClockStepped state target .interrupt none
  | call {p : ι} : state.calls p = .idle →
      target = { state with calls := Function.update state.calls p .testing } →
      ClockStepped state target (.call p) none
  | passed {p : ι} : state.calls p = .testing → state.nextInterrupt = true →
      target = { state with calls := Function.update state.calls p .clearing } →
      ClockStepped state target (.test p) none
  | waits {p : ι} : state.calls p = .testing → state.nextInterrupt = false → target = state →
      ClockStepped state target (.test p) none
  | clear {p : ι} : state.calls p = .clearing →
      target = { nextInterrupt := false, calls := Function.update state.calls p .idle } →
      ClockStepped state target (.clear p) (some 0)

theorem clockStep_cases {state target : ClockState ι} {event : ClockEvent ι} {reply : Option Int}
    (step : clockStep state event = some (reply, target)) :
    ClockStepped state target event reply := by
  cases event with
  | interrupt =>
      obtain ⟨rfl, rfl⟩ := Prod.mk.inj (Option.some.inj step)
      exact .interrupt rfl
  | call p =>
      simp only [clockStep] at step
      split at step
      · rename_i idle
        obtain ⟨rfl, rfl⟩ := Prod.mk.inj (Option.some.inj step)
        exact .call idle rfl
      · cases step
  | test p =>
      simp only [clockStep] at step
      split at step
      · rename_i testing
        split at step
        · rename_i flag
          obtain ⟨rfl, rfl⟩ := Prod.mk.inj (Option.some.inj step)
          exact .passed testing flag rfl
        · rename_i flag
          obtain ⟨rfl, rfl⟩ := Prod.mk.inj (Option.some.inj step)
          exact .waits testing (Bool.eq_false_iff.mpr flag) rfl
      · cases step
  | clear p =>
      simp only [clockStep] at step
      split at step
      · rename_i clearing
        obtain ⟨rfl, rfl⟩ := Prod.mk.inj (Option.some.inj step)
        exact .clear clearing rfl
      · cases step

/-! ## Ticks and returns -/

/-- Whether the clock ticked since the last call of each process. -/
def noteTick (ticked : ι → Bool) : ClockEvent ι → Option Int → ι → Bool
  | .interrupt, _ => fun _ => true
  | .call p, _ => Function.update ticked p false
  | _, _ => ticked

/-- A call returns only after a tick. -/
def ReturnsTicked (ticked : ι → Bool) : ClockEvent ι → Option Int → Prop
  | .clear p, _ => ticked p = true
  | _, _ => True

/-- The steps of one call alone let it return. -/
def CanReturn (state : ClockState ι) (p : ι) : Prop :=
  ∃ trace target,
    GuardedRun clockStep (fun _ event _ => event = .test p ∨ event = .clear p) state trace target ∧
      (ClockEvent.clear p, some 0) ∈ trace

/-- No call has returned before a tick, and every call that waits since a tick
can return without a second one. -/
structure WaitsForTick (trace : List (ClockEvent ι × Option Int)) (state : ClockState ι) :
    Prop where
  returned : Follows noteTick ReturnsTicked (fun _ => false) trace
  waiting : ∀ p, state.calls p ≠ .idle → observed noteTick (fun _ => false) trace p = true →
    CanReturn state p

/-- A process calls when the flag is clear, and clears a flag that is set when no
other call waits for it. -/
def Alone (state : ClockState ι) : ClockEvent ι → Option Int → Prop
  | .call _, _ => state.nextInterrupt = false
  | .clear p, _ => state.nextInterrupt = true → ∀ q, q ≠ p → state.calls q ≠ .testing
  | _, _ => True

/-- A step of one call does not bring another one to where it is. -/
theorem before_of_update {calls : ι → Reading} {p q : ι} {moved phase : Reading}
    (inside : Function.update calls p moved q = phase) (elsewhere : moved ≠ phase) :
    q ≠ p ∧ calls q = phase := by
  have other : q ≠ p := by
    rintro rfl
    exact elsewhere ((Function.update_self q moved calls).symm.trans inside)
  exact ⟨other, (Function.update_of_ne other _ _).symm.trans inside⟩

/-- A call in its loop has its tick exactly if the flag is set, and a call past
its loop has it. -/
structure FlagTells (state : ClockState ι) (ticked : ι → Bool) : Prop where
  testing : ∀ p, state.calls p = .testing → ticked p = state.nextInterrupt
  clearing : ∀ p, state.calls p = .clearing → ticked p = true

namespace FlagTells

omit [DecidableEq ι] in
theorem boot : FlagTells (ClockState.boot : ClockState ι) fun _ => false where
  testing := fun _ _ => rfl
  clearing := fun _ inside => nomatch inside

theorem step {state target : ClockState ι} {ticked : ι → Bool} {event : ClockEvent ι}
    {reply : Option Int} (tells : FlagTells state ticked) (alone : Alone state event reply)
    (step : clockStep state event = some (reply, target)) :
    ReturnsTicked ticked event reply ∧ FlagTells target (noteTick ticked event reply) := by
  cases clockStep_cases step with
  | interrupt changed =>
      subst changed
      exact ⟨trivial, fun _ _ => rfl, fun _ _ => rfl⟩
  | @call p idle changed =>
      subst changed
      refine ⟨trivial, ?_, ?_⟩
      · intro q inside
        by_cases same : q = p
        · subst same
          exact (Function.update_self q false ticked).trans alone.symm
        · rw [noteTick, Function.update_of_ne same]
          exact tells.testing q ((Function.update_of_ne same _ _).symm.trans inside)
      · intro q inside
        obtain ⟨other, before⟩ := before_of_update inside (by decide)
        rw [noteTick, Function.update_of_ne other]
        exact tells.clearing q before
  | @passed p testing flag changed =>
      subst changed
      refine ⟨trivial, ?_, ?_⟩
      · intro q inside
        exact tells.testing q (before_of_update inside (by decide)).2
      · intro q inside
        by_cases same : q = p
        · subst same
          exact (tells.testing q testing).trans flag
        · exact tells.clearing q ((Function.update_of_ne same _ _).symm.trans inside)
  | waits testing flag changed =>
      subst changed
      exact ⟨trivial, tells⟩
  | @clear p clearing changed =>
      subst changed
      refine ⟨tells.clearing p clearing, ?_, ?_⟩
      · intro q inside
        obtain ⟨other, waits⟩ := before_of_update inside (by decide)
        -- The tick that is cleared is the tick of `p` alone.
        cases flag : state.nextInterrupt with
        | false => exact (tells.testing q waits).trans flag
        | true => exact absurd waits (alone flag q other)
      · intro q inside
        exact tells.clearing q (before_of_update inside (by decide)).2

end FlagTells

theorem canReturn_of_clearing {state : ClockState ι} {p : ι}
    (clearing : state.calls p = .clearing) : CanReturn state p :=
  ⟨[(.clear p, some 0)], _, .cons (Or.inr rfl) (if_pos clearing) (.nil _), by simp⟩

theorem canReturn_of_testing {state : ClockState ι} {p : ι} (testing : state.calls p = .testing)
    (flag : state.nextInterrupt = true) : CanReturn state p := by
  have tested :
      clockStep state (.test p) =
        some (none, { state with calls := Function.update state.calls p .clearing }) := by
    simp [clockStep, testing, flag]
  have past : CanReturn { state with calls := Function.update state.calls p .clearing } p :=
    canReturn_of_clearing (Function.update_self p Reading.clearing state.calls)
  obtain ⟨trace, target, run, returned⟩ := past
  exact ⟨_, target, .cons (Or.inl rfl) tested run, List.mem_cons_of_mem _ returned⟩

/-- A call that has its tick can return. -/
theorem FlagTells.canReturn {state : ClockState ι} {ticked : ι → Bool} {p : ι}
    (tells : FlagTells state ticked) (inside : state.calls p ≠ .idle) (tick : ticked p = true) :
    CanReturn state p := by
  cases phase : state.calls p with
  | idle => exact absurd phase inside
  | testing => exact canReturn_of_testing phase ((tells.testing p phase).symm.trans tick)
  | clearing => exact canReturn_of_clearing phase

/-- A call in its loop cannot return on its own while the flag is clear. -/
theorem not_canReturn {state : ClockState ι} {p : ι} (testing : state.calls p = .testing)
    (flag : state.nextInterrupt = false) : ¬ CanReturn state p := by
  rintro ⟨trace, target, run, returned⟩
  induction run with
  | nil state => cases returned
  | cons own step _ ih =>
      cases clockStep_cases step with
      | interrupt => exact own.elim (fun wrong => nomatch wrong) fun wrong => nomatch wrong
      | call => exact own.elim (fun wrong => nomatch wrong) fun wrong => nomatch wrong
      | @passed q _ set _ => exact Bool.noConfusion (set.symm.trans flag)
      | waits _ _ same =>
          subst same
          have later := (List.mem_cons.mp returned).resolve_left fun wrong => nomatch wrong
          exact ih testing flag later
      | @clear q clearing _ =>
          have same : q = p := by
            obtain wrong | same := own
            · cases wrong
            · exact ClockEvent.clear.inj same
          rw [same, testing] at clearing
          cases clearing

/-- In a run of such steps every call waits for its tick and gets it. -/
theorem rtcRead_waitsForTick {trace : List (ClockEvent ι × Option Int)} {state : ClockState ι}
    (run : GuardedRun clockStep Alone ClockState.boot trace state) : WaitsForTick trace state := by
  have simulated := run.simulation ReturnsTicked FlagTells
    (fun tells alone _ step => tells.step alone step) (follows_any noteTick _ trace) FlagTells.boot
  exact ⟨simulated.1, fun p inside tick => simulated.2.canReturn inside tick⟩

/-- One call and one tick. -/
theorem rtcRead_waitsForTick_once :
    ∃ state : ClockState Nat,
      GuardedRun clockStep Alone ClockState.boot
        [(.call 0, none), (.interrupt, none), (.test 0, none), (.clear 0, some 0)] state ∧
      WaitsForTick
        [(.call 0, none), (.interrupt, none), (.test 0, none), (.clear 0, some 0)] state := by
  have others : ∀ q : Nat, q ≠ 0 →
      Function.update (Function.update (fun _ => Reading.idle) 0 .testing) 0 .clearing q ≠
        .testing := by
    intro q other
    rw [Function.update_of_ne other, Function.update_of_ne other]
    decide
  have run : GuardedRun clockStep Alone (ClockState.boot : ClockState Nat)
      [(.call 0, none), (.interrupt, none), (.test 0, none), (.clear 0, some 0)] _ :=
    .cons rfl rfl (.cons trivial rfl (.cons trivial rfl (.cons (fun _ => others) rfl (.nil _))))
  exact ⟨_, run, rtcRead_waitsForTick run⟩

/-- A call after a tick returns at once, and of two calls that wait for a tick
the first to clear the flag takes it from the other. -/
theorem rtcRead_mistakes_ticks :
    (∃ state : ClockState Nat,
      Run clockStep ClockState.boot
        [(.interrupt, none), (.call 0, none), (.test 0, none), (.clear 0, some 0)] state ∧
      ¬ WaitsForTick
        [(.interrupt, none), (.call 0, none), (.test 0, none), (.clear 0, some 0)] state) ∧
    ∃ state : ClockState Nat,
      Run clockStep ClockState.boot
        [(.call 0, none), (.call 1, none), (.interrupt, none), (.test 0, none),
          (.clear 0, some 0)] state ∧
      ¬ WaitsForTick
        [(.call 0, none), (.call 1, none), (.interrupt, none), (.test 0, none),
          (.clear 0, some 0)] state := by
  constructor
  · refine ⟨_, .cons trivial rfl (.cons trivial rfl (.cons trivial rfl
      (.cons trivial rfl (.nil _)))), ?_⟩
    intro waits
    have early : Function.update (fun _ : Nat => true) 0 false 0 = true := waits.returned.2.2.2.1
    cases early
  · refine ⟨_, .cons trivial rfl (.cons trivial rfl (.cons trivial rfl (.cons trivial rfl
      (.cons trivial rfl (.nil _))))), ?_⟩
    intro waits
    exact not_canReturn rfl rfl (waits.waiting 1 (by decide) rfl)

end PonyOS.Clock
