import PonyOS.Lib.Ranking
import PonyOS.Process.Fairness

/-!
# How long a process waits

A schedulable process waits for the others.  Its delay counts the schedulable
processes that are neither it nor the current one, each with its distance on the
cycle of pids, and a full round for each terminal whose shell may still be
launched.  The current process may start children, return to parents, halt or be
interrupted by a launch: none of this raises the delay of another process.
-/

namespace PonyOS.Process

open PonyOS.Lib.Ranking
open PonyOS.Lib.RoundRobin

namespace ProcessTable

/-- A process that runs and waits for no child. -/
def Ready (table : ProcessTable) (pid : Nat) : Prop :=
  table.running pid = true ∧ (table.links pid).child = none

instance (table : ProcessTable) (pid : Nat) : Decidable (table.Ready pid) :=
  inferInstanceAs (Decidable (_ ∧ _))

/-- The ready processes that are neither waiting here nor current. -/
def others (table : ProcessTable) (waiting : Nat) : Finset Nat :=
  (Finset.range 8).filter fun pid =>
    table.Ready pid ∧ pid ≠ waiting ∧ table.current ≠ some pid

/-- The terminals whose shell may still be launched. -/
def unlaunched (table : ProcessTable) : Nat :=
  (if table.launchedSecond then 0 else 1) + if table.launchedThird then 0 else 1

/-- What a process has to wait for. -/
def delay (table : ProcessTable) (waiting : Nat) : Nat :=
  backlog 8 waiting (table.others waiting) + 7 * table.unlaunched

variable {table target : ProcessTable} {waiting : Nat}

theorem mem_others {pid : Nat} : pid ∈ table.others waiting ↔
    pid < 8 ∧ table.Ready pid ∧ pid ≠ waiting ∧ table.current ≠ some pid := by
  simp [others]

theorem delay_le (fewer : target.others waiting ⊆ table.others waiting)
    (launched : target.unlaunched ≤ table.unlaunched) :
    target.delay waiting ≤ table.delay waiting := by
  have less := backlog_mono 8 waiting fewer
  unfold delay
  omega

/-- The interrupted process joins the others when a shell is launched. -/
theorem delay_le_of_launch {interrupted : Nat}
    (joined : target.others waiting ⊆ insert interrupted (table.others waiting))
    (launched : target.unlaunched + 1 = table.unlaunched) :
    target.delay waiting ≤ table.delay waiting := by
  have more := backlog_mono 8 waiting joined
  have entered := backlog_insert_le 8 waiting interrupted (table.others waiting)
  have near := distance_lt (show 0 < 8 by decide) waiting interrupted
  unfold delay
  omega

/-! ## Starts -/

/-- After a start the others were ready before. -/
theorem others_spawn {pid terminal other : Nat} {isTerminal : Int}
    (member : other ∈ (table.spawn pid terminal isTerminal).others waiting) :
    other < 8 ∧ other ≠ waiting ∧ table.Ready other ∧
      ¬ (table.current = some other ∧ isTerminal = 0) := by
  rcases mem_others.mp member with ⟨upper, ⟨runs, childless⟩, distinct, notCurrent⟩
  have notNew : other ≠ pid := fun same => notCurrent (congrArg some same.symm)
  have ranBefore : table.running other = true := by
    have updated : Function.update table.running pid true other = true := runs
    rwa [Function.update_of_ne notNew] at updated
  rw [spawn_child] at childless
  split at childless
  · contradiction
  · next notParent => exact ⟨upper, distinct, ⟨ranBefore, childless⟩, notParent⟩

/-- A start leaves a waiting process ready, unless it is the one that starts. -/
theorem Ready.spawn (ready : table.Ready waiting) {pid terminal : Nat} {isTerminal : Int}
    (notParent : ¬ (table.current = some waiting ∧ isTerminal = 0)) :
    (table.spawn pid terminal isTerminal).Ready waiting := by
  constructor
  · change Function.update table.running pid true waiting = true
    by_cases same : waiting = pid
    · rw [same, Function.update_self]
    · rw [Function.update_of_ne same]
      exact ready.1
  · rw [spawn_child, if_neg notParent]
    exact ready.2

/-- A shell launched by a key interrupts the current process. -/
theorem delay_launch (raised : ProcessTable) {pid terminal current : Nat}
    (isCurrent : table.current = some current) (sameRunning : raised.running = table.running)
    (sameLinks : raised.links = table.links)
    (launched : raised.unlaunched + 1 = table.unlaunched) :
    (raised.spawn pid terminal 1).delay waiting ≤ table.delay waiting := by
  have joined : (raised.spawn pid terminal 1).others waiting ⊆
      insert current (table.others waiting) := by
    intro other member
    rcases others_spawn member with ⟨upper, distinct, ready, -⟩
    have wasReady : table.Ready other := by
      unfold Ready at ready ⊢
      rwa [sameRunning, sameLinks] at ready
    by_cases same : other = current
    · rw [same]
      exact Finset.mem_insert_self _ _
    · apply Finset.mem_insert_of_mem
      refine mem_others.mpr ⟨upper, wasReady, distinct, ?_⟩
      rw [isCurrent]
      exact fun equal => same (Option.some.inj equal).symm
  exact delay_le_of_launch joined launched

/-! ## The other changes -/

theorem others_stop (pid : Nat) : (table.stop pid).others waiting ⊆ table.others waiting := by
  intro other member
  rcases mem_others.mp member with ⟨upper, ⟨runs, childless⟩, distinct, notCurrent⟩
  exact mem_others.mpr ⟨upper, ⟨(Inv.stop_running.mp runs).2, childless⟩, distinct, notCurrent⟩

theorem Ready.stop (ready : table.Ready waiting) {pid : Nat} (distinct : waiting ≠ pid) :
    (table.stop pid).Ready waiting :=
  ⟨Inv.stop_running.mpr ⟨distinct, ready.1⟩, ready.2⟩

theorem Ready.leave (ready : table.Ready waiting) {pid parent : Nat} (distinct : waiting ≠ pid) :
    (table.leave pid parent).Ready waiting := by
  refine ⟨Inv.stop_running.mpr ⟨distinct, ready.1⟩, ?_⟩
  rw [Inv.leave_child]
  split
  · rfl
  · exact ready.2

/-- The parent that a child leaves to becomes current in its place. -/
theorem others_leave {pid parent : Nat} (isCurrent : table.current = some pid)
    (pidField : (table.links parent).pid = parent) :
    (table.leave pid parent).others waiting ⊆ table.others waiting := by
  intro other member
  rcases mem_others.mp member with ⟨upper, ⟨runs, childless⟩, distinct, notCurrent⟩
  rcases Inv.stop_running.mp runs with ⟨notPid, ranBefore⟩
  have notParent : other ≠ parent := by
    rintro rfl
    exact notCurrent (congrArg some pidField)
  rw [Inv.leave_child, if_neg notParent] at childless
  refine mem_others.mpr ⟨upper, ⟨ranBefore, childless⟩, distinct, ?_⟩
  rw [isCurrent]
  exact fun same => notPid (Option.some.inj same).symm

theorem flag_le {before after : Bool} (raised : before = true → after = true) :
    (if after then 0 else 1) ≤ if before then 0 else 1 := by
  cases before with
  | false => split <;> decide
  | true => rw [raised rfl]

/-- Between two ticks a waiting process stays ready and its delay does not
rise. -/
theorem Inv.delay_change (inv : table.Inv) {reply : ProcessReply}
    (change : TableChange table reply target) (notTick : ∀ loaded, reply ≠ .ticked loaded)
    (ready : table.Ready waiting) (waits : table.current ≠ some waiting) :
    target.Ready waiting ∧ target.delay waiting ≤ table.delay waiting := by
  have current : ∃ current, table.current = some current := by
    apply Option.ne_none_iff_exists'.mp
    intro noCurrent
    have stopped := inv.idle noCurrent waiting
    exact absurd (ready.1.symm.trans stopped) (by decide)
  cases change with
  | same => exact ⟨ready, Nat.le_refl _⟩
  | failedLaunch second third keepsSecond keepsThird =>
      refine ⟨ready, delay_le (Finset.Subset.refl _) ?_⟩
      exact Nat.add_le_add (flag_le keepsSecond) (flag_le keepsThird)
  | firstShell pid entry free noCurrent =>
      rcases current with ⟨other, isCurrent⟩
      exact absurd (noCurrent.symm.trans isCurrent) (by simp)
  | secondShell pid entry free wasFree =>
      rcases current with ⟨other, isCurrent⟩
      refine ⟨Ready.spawn ready (fun both => absurd both.2 (by decide)), ?_⟩
      refine delay_launch { table with launchedSecond := true } isCurrent rfl rfl ?_
      simp only [unlaunched, wasFree]
      exact Nat.add_right_comm 0 _ 1
  | thirdShell pid entry free wasFree =>
      rcases current with ⟨other, isCurrent⟩
      refine ⟨Ready.spawn ready (fun both => absurd both.2 (by decide)), ?_⟩
      refine delay_launch { table with launchedThird := true } isCurrent rfl rfl ?_
      simp only [unlaunched, wasFree]
      rfl
  | child caller pid entry free isCurrent isRunning =>
      refine ⟨Ready.spawn ready (fun both => waits both.1), delay_le ?_ (Nat.le_refl _)⟩
      intro other member
      rcases others_spawn member with ⟨upper, distinct, wasReady, notParent⟩
      exact mem_others.mpr ⟨upper, wasReady, distinct, fun same => notParent ⟨same, rfl⟩⟩
  | stop caller isCurrent isRunning isRoot notLast =>
      have distinct : waiting ≠ caller := fun same => waits (same ▸ isCurrent)
      exact ⟨ready.stop distinct, delay_le (others_stop caller) (Nat.le_refl _)⟩
  | leave caller parent registers isCurrent isRunning isChild parentEq =>
      have distinct : waiting ≠ caller := fun same => waits (same ▸ isCurrent)
      rcases inv.parent caller isRunning isChild with ⟨found, foundEq, foundRuns, -⟩
      cases foundEq.symm.trans parentEq
      exact ⟨ready.leave distinct,
        delay_le (others_leave isCurrent (inv.pidField parent foundRuns)) (Nat.le_refl _)⟩
  | switch pid loaded isRunning childless => exact absurd rfl (notTick loaded)

/-- A switch that passes a waiting process by lowers its delay. -/
theorem delay_switch {position later : Nat} (first : FirstAfter 8 table.Ready position later)
    (ready : table.Ready waiting) (waitingLt : waiting < 8)
    (isCurrent : table.current = some (position % 8)) (notHere : position % 8 ≠ waiting)
    (passed : later % 8 ≠ waiting) (sameRunning : target.running = table.running)
    (sameLinks : target.links = table.links) (entered : target.current = some (later % 8))
    (sameLaunched : target.unlaunched = table.unlaunched) :
    target.delay waiting < table.delay waiting := by
  have less : backlog 8 waiting (target.others waiting) <
      backlog 8 waiting (table.others waiting) := by
    have sameReady : target.Ready = table.Ready := by
      funext pid
      unfold Ready
      rw [sameRunning, sameLinks]
    have nearer := distance_lt_of_firstAfter first ready waitingLt notHere passed
    apply backlog_lt_of_firstAfter first ready waitingLt notHere passed
    · refine mem_others.mpr ⟨Nat.mod_lt _ (by decide), first.isReady, passed, ?_⟩
      rw [isCurrent]
      intro same
      rw [Option.some.inj same] at nearer
      exact absurd nearer (Nat.lt_irrefl _)
    · intro other member
      rcases mem_others.mp member with ⟨upper, isReady, distinct, notCurrent⟩
      rw [sameReady] at isReady
      by_cases left : other = position % 8
      · rw [left]
        exact Finset.mem_insert_self _ _
      · apply Finset.mem_insert_of_mem
        rw [Finset.mem_erase]
        refine ⟨fun same => notCurrent (entered.trans (congrArg some same.symm)), ?_⟩
        refine mem_others.mpr ⟨upper, isReady, distinct, ?_⟩
        rw [isCurrent]
        exact fun same => left (Option.some.inj same).symm
  unfold delay
  omega

/-! ## A bound -/

/-- There is one ready process for each terminal, and a terminal that was not
launched has none. -/
theorem Inv.card_others (inv : table.Inv) (ready : table.Ready waiting) :
    (table.others waiting).card + table.unlaunched ≤ 2 := by
  have terminals : (insert waiting (table.others waiting)).card + table.unlaunched ≤ 3 := by
    let used : Finset Nat := (Finset.range 3).filter fun terminal =>
      (terminal = 1 → table.launchedSecond = true) ∧ (terminal = 2 → table.launchedThird = true)
    have isReady : ∀ pid ∈ insert waiting (table.others waiting), table.Ready pid := by
      intro pid member
      rcases Finset.mem_insert.mp member with rfl | other
      · exact ready
      · exact (mem_others.mp other).2.1
    have injected : (insert waiting (table.others waiting)).card ≤ used.card := by
      apply Finset.card_le_card_of_injOn fun pid => (table.links pid).terminal
      · intro pid member
        have ready := isReady pid member
        apply Finset.mem_coe.mpr (Finset.mem_filter.mpr ⟨?_, inv.second pid ready.1,
          inv.third pid ready.1⟩)
        exact Finset.mem_range.mpr (inv.terminalLt pid ready.1)
      · intro left leftMember right rightMember same
        have leftReady := isReady left leftMember
        have rightReady := isReady right rightMember
        exact inv.leaf left right leftReady.1 rightReady.1 leftReady.2 rightReady.2 same
    have counted : used.card + table.unlaunched = 3 := by
      unfold unlaunched
      cases isSecond : table.launchedSecond <;> cases isThird : table.launchedThird <;>
        simp only [used, isSecond, isThird] <;> decide
    omega
  have notMember : waiting ∉ table.others waiting :=
    fun member => (mem_others.mp member).2.2.1 rfl
  rw [Finset.card_insert_of_notMem notMember] at terminals
  omega

/-- Two rounds are the most a process has to wait for. -/
theorem Inv.delay_le_two_rounds (inv : table.Inv) (ready : table.Ready waiting) :
    table.delay waiting ≤ 14 := by
  have few := inv.card_others ready
  have bound := backlog_le (show 0 < 8 by decide) waiting (table.others waiting)
  unfold delay
  omega

end ProcessTable

end PonyOS.Process
