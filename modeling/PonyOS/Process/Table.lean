import Mathlib.Data.List.Count
import Mathlib.Logic.Function.Basic
import PonyOS.Lib.Count

/-!
# The process table

What the process code is for: on each terminal one chain of processes, each
waiting for the one it started, and the last of them schedulable.  The table
keeps the links between processes and nothing else.  Its operations are the
four ways the current process changes: a child is started, a root is started,
a root leaves, a child leaves; and the scheduler's switch.
-/

namespace PonyOS.Process

open PonyOS.Lib.Count

universe u

/-- The links of one process. -/
structure Links where
  parent : Option Nat
  child : Option Nat
  terminal : Nat
  isTerminal : Int
  pid : Nat

/-- Who runs, how many, who is current, how they are linked, and which of the
two further terminals were launched. -/
structure ProcessTable where
  running : Nat → Bool
  total : Int
  current : Option Nat
  links : Nat → Links
  launchedSecond : Bool
  launchedThird : Bool

namespace ProcessTable

/-- Number of running processes. -/
def runningCount (running : Nat → Bool) : Nat :=
  (List.range 8).countP running

/-- Start a process. -/
def spawn (table : ProcessTable) (pid terminal : Nat) (isTerminal : Int) : ProcessTable :=
  let linked := Function.update table.links pid
    { table.links pid with
      parent := table.current, terminal := terminal, isTerminal := isTerminal, pid := pid }
  { table with
    running := Function.update table.running pid true
    total := table.total + 1
    current := some pid
    links :=
      match table.current with
      | some parent =>
          if isTerminal = 0 then
            Function.update linked parent { linked parent with child := some pid }
          else linked
      | none => linked }

/-- A process stops running and stays current. -/
def stop (table : ProcessTable) (pid : Nat) : ProcessTable :=
  { table with
    running := Function.update table.running pid false
    total := table.total - 1 }

/-- A process leaves to its parent. -/
def leave (table : ProcessTable) (pid parent : Nat) : ProcessTable :=
  { table.stop pid with
    current := some (table.links parent).pid
    links := Function.update table.links parent { table.links parent with child := none } }

/-- The scheduler makes another process current. -/
def switch (table : ProcessTable) (pid : Nat) : ProcessTable :=
  { table with current := some pid }

/-! ## Counting -/

theorem runningCount_start {running : Nat → Bool} {pid : Nat} (bound : pid < 8)
    (stopped : running pid = false) :
    runningCount (Function.update running pid true) = runningCount running + 1 :=
  countP_update_true List.nodup_range (List.mem_range.mpr bound) stopped

theorem runningCount_stop {running : Nat → Bool} {pid : Nat} (bound : pid < 8)
    (started : running pid = true) :
    runningCount (Function.update running pid false) + 1 = runningCount running :=
  countP_update_false List.nodup_range (List.mem_range.mpr bound) started

theorem runningCount_pos {running : Nat → Bool} {pid : Nat} (bound : pid < 8)
    (started : running pid = true) : 0 < runningCount running :=
  List.countP_pos_iff.mpr ⟨pid, List.mem_range.mpr bound, started⟩

theorem two_le_runningCount {running : Nat → Bool} {first second : Nat}
    (firstBound : first < 8) (secondBound : second < 8) (distinct : first ≠ second)
    (firstRuns : running first = true) (secondRuns : running second = true) :
    2 ≤ runningCount running := by
  have others : Function.update running first false second = true := by
    rw [Function.update_of_ne (Ne.symm distinct)]
    exact secondRuns
  have stopped := runningCount_stop firstBound firstRuns
  have positive := runningCount_pos secondBound others
  omega

/-! ## The invariant -/

/-- What every reachable process table satisfies. -/
structure Inv (table : ProcessTable) : Prop where
  range : ∀ pid, table.running pid = true → 1 ≤ pid ∧ pid < 8
  count : table.total = runningCount table.running
  pidField : ∀ pid, table.running pid = true → (table.links pid).pid = pid
  childFree : ∀ pid, table.running pid = false → (table.links pid).child = none
  kind : ∀ pid, table.running pid = true →
    (table.links pid).isTerminal = 0 ∨ (table.links pid).isTerminal = 1
  parent : ∀ pid, table.running pid = true → (table.links pid).isTerminal = 0 →
    ∃ parent, (table.links pid).parent = some parent ∧ table.running parent = true ∧
      parent ≠ pid ∧ (table.links parent).terminal = (table.links pid).terminal ∧
      (table.links parent).child = some pid
  child : ∀ pid child, table.running pid = true → (table.links pid).child = some child →
    table.running child = true ∧ (table.links child).isTerminal = 0 ∧
      (table.links child).parent = some pid
  root : ∀ first second, table.running first = true → table.running second = true →
    (table.links first).isTerminal = 1 → (table.links second).isTerminal = 1 →
    (table.links first).terminal = (table.links second).terminal → first = second
  leaf : ∀ first second, table.running first = true → table.running second = true →
    (table.links first).child = none → (table.links second).child = none →
    (table.links first).terminal = (table.links second).terminal → first = second
  terminalLt : ∀ pid, table.running pid = true → (table.links pid).terminal < 3
  idle : table.current = none → ∀ pid, table.running pid = false
  current : ∀ pid, table.current = some pid →
    1 ≤ pid ∧ pid < 8 ∧ (table.links pid).pid = pid ∧
      ((table.running pid = true ∧ (table.links pid).child = none) ∨
        (table.running pid = false ∧ (table.links pid).isTerminal = 1))
  second : ∀ pid, table.running pid = true → (table.links pid).terminal = 1 →
    table.launchedSecond = true
  third : ∀ pid, table.running pid = true → (table.links pid).terminal = 2 →
    table.launchedThird = true

namespace Inv

variable {table : ProcessTable}

/-- A current process that runs has no child. -/
theorem current_child (inv : table.Inv) {pid : Nat} (isCurrent : table.current = some pid)
    (isRunning : table.running pid = true) : (table.links pid).child = none := by
  rcases (inv.current pid isCurrent).2.2.2 with ⟨-, childless⟩ | ⟨stopped, -⟩
  · exact childless
  · rw [isRunning] at stopped
    contradiction

/-- A process with a parent is not the only one. -/
theorem two_le_total (inv : table.Inv) {first second : Nat} (distinct : first ≠ second)
    (firstRuns : table.running first = true) (secondRuns : table.running second = true) :
    2 ≤ table.total := by
  have counted := two_le_runningCount (inv.range first firstRuns).2 (inv.range second secondRuns).2
    distinct firstRuns secondRuns
  rw [inv.count]
  exact_mod_cast counted

/-- The scheduler may switch to any process without a child. -/
theorem switch (inv : table.Inv) {pid : Nat} (isRunning : table.running pid = true)
    (childless : (table.links pid).child = none) : (table.switch pid).Inv := by
  obtain ⟨lower, upper⟩ := inv.range pid isRunning
  constructor
  · exact inv.range
  · exact inv.count
  · exact inv.pidField
  · exact inv.childFree
  · exact inv.kind
  · exact inv.parent
  · exact inv.child
  · exact inv.root
  · exact inv.leaf
  · exact inv.terminalLt
  · intro noCurrent
    contradiction
  · intro other isCurrent
    cases isCurrent
    exact ⟨lower, upper, inv.pidField pid isRunning, .inl ⟨isRunning, childless⟩⟩
  · exact inv.second
  · exact inv.third

/-- Raising launch flags keeps the invariant. -/
theorem launch (inv : table.Inv) {launchedSecond launchedThird : Bool}
    (second : table.launchedSecond = true → launchedSecond = true)
    (third : table.launchedThird = true → launchedThird = true) :
    Inv { table with launchedSecond := launchedSecond, launchedThird := launchedThird } := by
  constructor
  · exact inv.range
  · exact inv.count
  · exact inv.pidField
  · exact inv.childFree
  · exact inv.kind
  · exact inv.parent
  · exact inv.child
  · exact inv.root
  · exact inv.leaf
  · exact inv.terminalLt
  · exact inv.idle
  · exact inv.current
  · intro pid isRunning onSecond
    exact second (inv.second pid isRunning onSecond)
  · intro pid isRunning onThird
    exact third (inv.third pid isRunning onThird)

end Inv

/-! ## Starting a process -/

/-- What a start does to everything but the child pointers of the others. -/
structure Started (table target : ProcessTable) (pid terminal : Nat) (isTerminal : Int) :
    Prop where
  runs : ∀ other, target.running other = true ↔ other = pid ∨ table.running other = true
  total : target.total = runningCount target.running
  current : target.current = some pid
  second : target.launchedSecond = table.launchedSecond
  third : target.launchedThird = table.launchedThird
  new : target.links pid =
    { parent := table.current, child := none, terminal := terminal, isTerminal := isTerminal,
      pid := pid }
  parent : ∀ other, other ≠ pid → (target.links other).parent = (table.links other).parent
  terminal : ∀ other, other ≠ pid → (target.links other).terminal = (table.links other).terminal
  isTerminal : ∀ other, other ≠ pid →
    (target.links other).isTerminal = (table.links other).isTerminal
  pidField : ∀ other, other ≠ pid → (target.links other).pid = (table.links other).pid

/-- The child pointers after a start: only a child start changes one. -/
theorem spawn_child (table : ProcessTable) (pid terminal : Nat) (isTerminal : Int) (other : Nat) :
    ((table.spawn pid terminal isTerminal).links other).child =
      if table.current = some other ∧ isTerminal = 0 then some pid
      else (table.links other).child := by
  cases currentEq : table.current with
  | none =>
      simp only [spawn, currentEq, reduceCtorEq, false_and, if_false]
      by_cases same : other = pid
      · rw [same, Function.update_self]
      · rw [Function.update_of_ne same]
  | some parent =>
      have linked : (Function.update table.links pid
          { table.links pid with
            parent := some parent, terminal := terminal, isTerminal := isTerminal, pid := pid }
          other).child = (table.links other).child := by
        by_cases same : other = pid
        · rw [same, Function.update_self]
        · rw [Function.update_of_ne same]
      simp only [spawn, currentEq, Option.some.injEq]
      by_cases isChild : isTerminal = 0
      · by_cases isParent : parent = other
        · subst isParent
          rw [if_pos isChild, if_pos ⟨rfl, isChild⟩, Function.update_self]
        · rw [if_pos isChild, if_neg (fun both => isParent both.1),
            Function.update_of_ne (Ne.symm isParent), linked]
      · rw [if_neg isChild, if_neg (fun both => isChild both.2), linked]

theorem spawn_links (table : ProcessTable) (pid terminal : Nat) (isTerminal : Int) (other : Nat) :
    (table.spawn pid terminal isTerminal).links other =
      { Function.update table.links pid { table.links pid with
          parent := table.current, terminal := terminal, isTerminal := isTerminal, pid := pid }
          other with
        child := ((table.spawn pid terminal isTerminal).links other).child } := by
  cases currentEq : table.current with
  | none => simp only [spawn, currentEq]
  | some parent =>
      simp only [spawn, currentEq]
      split
      · by_cases isParent : other = parent
        · rw [isParent, Function.update_self]
        · rw [Function.update_of_ne isParent]
      · rfl

namespace Inv

variable {table target : ProcessTable}

theorem spawn_started (inv : table.Inv) {pid : Nat} (terminal : Nat) (isTerminal : Int)
    (upper : pid < 8) (free : table.running pid = false)
    (notOwn : table.current = some pid → isTerminal ≠ 0) :
    Started table (table.spawn pid terminal isTerminal) pid terminal isTerminal := by
  have linksOf := table.spawn_links pid terminal isTerminal
  constructor
  · intro other
    by_cases same : other = pid
    · simp [spawn, same]
    · simp [spawn, same]
  · change table.total + 1 = (runningCount (Function.update table.running pid true) : Int)
    rw [runningCount_start upper free, inv.count]
    rfl
  · rfl
  · rfl
  · rfl
  · have childless := spawn_child table pid terminal isTerminal pid
    rw [if_neg (fun both => notOwn both.1 both.2), inv.childFree pid free] at childless
    rw [linksOf, childless, Function.update_self]
  · intro other notPid
    rw [linksOf, Function.update_of_ne notPid]
  · intro other notPid
    rw [linksOf, Function.update_of_ne notPid]
  · intro other notPid
    rw [linksOf, Function.update_of_ne notPid]
  · intro other notPid
    rw [linksOf, Function.update_of_ne notPid]

theorem of_started (inv : table.Inv) {pid terminal : Nat} {isTerminal : Int}
    (started : Started table target pid terminal isTerminal)
    (lower : 1 ≤ pid) (upper : pid < 8) (terminalLt : terminal < 3)
    (kind : isTerminal = 0 ∨ isTerminal = 1)
    (second : terminal = 1 → table.launchedSecond = true)
    (third : terminal = 2 → table.launchedThird = true)
    (childFree : ∀ other, target.running other = false → (target.links other).child = none)
    (parent : ∀ other, target.running other = true → (target.links other).isTerminal = 0 →
      ∃ parent, (target.links other).parent = some parent ∧ target.running parent = true ∧
        parent ≠ other ∧ (target.links parent).terminal = (target.links other).terminal ∧
        (target.links parent).child = some other)
    (child : ∀ other child, target.running other = true →
      (target.links other).child = some child →
      target.running child = true ∧ (target.links child).isTerminal = 0 ∧
        (target.links child).parent = some other)
    (root : ∀ first second, target.running first = true → target.running second = true →
      (target.links first).isTerminal = 1 → (target.links second).isTerminal = 1 →
      (target.links first).terminal = (target.links second).terminal → first = second)
    (leaf : ∀ first second, target.running first = true → target.running second = true →
      (target.links first).child = none → (target.links second).child = none →
      (target.links first).terminal = (target.links second).terminal → first = second) :
    target.Inv := by
  -- Each remaining field holds of the new process by its links, and of the others as before.
  have cases : ∀ other, target.running other = true →
      other = pid ∨ (other ≠ pid ∧ table.running other = true) := by
    intro other isRunning
    by_cases same : other = pid
    · exact .inl same
    · exact .inr ⟨same, ((started.runs other).mp isRunning).resolve_left same⟩
  constructor
  · intro other isRunning
    rcases cases other isRunning with rfl | ⟨-, ran⟩
    · exact ⟨lower, upper⟩
    · exact inv.range other ran
  · exact started.total
  · intro other isRunning
    rcases cases other isRunning with rfl | ⟨notPid, ran⟩
    · rw [started.new]
    · rw [started.pidField other notPid]
      exact inv.pidField other ran
  · exact childFree
  · intro other isRunning
    rcases cases other isRunning with rfl | ⟨notPid, ran⟩
    · rw [started.new]
      exact kind
    · rw [started.isTerminal other notPid]
      exact inv.kind other ran
  · exact parent
  · exact child
  · exact root
  · exact leaf
  · intro other isRunning
    rcases cases other isRunning with rfl | ⟨notPid, ran⟩
    · rw [started.new]
      exact terminalLt
    · rw [started.terminal other notPid]
      exact inv.terminalLt other ran
  · intro noCurrent
    rw [started.current] at noCurrent
    contradiction
  · intro other isCurrent
    rw [started.current, Option.some.injEq] at isCurrent
    subst isCurrent
    have isRunning : target.running pid = true := (started.runs pid).mpr (.inl rfl)
    rw [started.new]
    exact ⟨lower, upper, rfl, .inl ⟨isRunning, rfl⟩⟩
  · intro other isRunning onSecond
    rw [started.second]
    rcases cases other isRunning with rfl | ⟨notPid, ran⟩
    · rw [started.new] at onSecond
      exact second onSecond
    · rw [started.terminal other notPid] at onSecond
      exact inv.second other ran onSecond
  · intro other isRunning onThird
    rw [started.third]
    rcases cases other isRunning with rfl | ⟨notPid, ran⟩
    · rw [started.new] at onThird
      exact third onThird
    · rw [started.terminal other notPid] at onThird
      exact inv.third other ran onThird

end Inv

/-- A running process is not in a free slot. -/
theorem ne_of_free {table : ProcessTable} {pid other : Nat} (free : table.running pid = false)
    (ran : table.running other = true) : other ≠ pid := by
  rintro rfl
  rw [ran] at free
  contradiction

namespace Started

variable {table target : ProcessTable} {pid terminal : Nat} {isTerminal : Int}

theorem ran (started : Started table target pid terminal isTerminal) {other : Nat}
    (notNew : other ≠ pid) (isRunning : target.running other = true) :
    table.running other = true :=
  ((started.runs other).mp isRunning).resolve_left notNew

theorem stillRuns (started : Started table target pid terminal isTerminal) {other : Nat}
    (ran : table.running other = true) : target.running other = true :=
  (started.runs other).mpr (.inr ran)

theorem wasStopped (started : Started table target pid terminal isTerminal) {other : Nat}
    (stopped : target.running other = false) : table.running other = false := by
  by_contra ran
  rw [started.stillRuns (by simpa using ran)] at stopped
  contradiction

/-- A process that ran before still waits for its own child, if the child
pointer to it was kept. -/
theorem keeps_parent (started : Started table target pid terminal isTerminal) (inv : table.Inv)
    (free : table.running pid = false) {other : Nat} (notNew : other ≠ pid)
    (isRunning : target.running other = true) (isChild : (target.links other).isTerminal = 0)
    (kept : ∀ waiting, (table.links waiting).child = some other →
      (target.links waiting).child = some other) :
    ∃ parent, (target.links other).parent = some parent ∧ target.running parent = true ∧
      parent ≠ other ∧ (target.links parent).terminal = (target.links other).terminal ∧
      (target.links parent).child = some other := by
  rw [started.isTerminal other notNew] at isChild
  obtain ⟨waiting, waitingEq, waitingRuns, waitingNe, sameTerminal, waitingChild⟩ :=
    inv.parent other (started.ran notNew isRunning) isChild
  refine ⟨waiting, ?_, started.stillRuns waitingRuns, waitingNe, ?_, kept waiting waitingChild⟩
  · rw [started.parent other notNew, waitingEq]
  · rw [started.terminal other notNew, started.terminal waiting (ne_of_free free waitingRuns),
      sameTerminal]

theorem keeps_child (started : Started table target pid terminal isTerminal) (inv : table.Inv)
    (free : table.running pid = false) {other child : Nat}
    (isRunning : target.running other = true)
    (hasChild : (table.links other).child = some child) :
    target.running child = true ∧ (target.links child).isTerminal = 0 ∧
      (target.links child).parent = some other := by
  have notNew : other ≠ pid := by
    rintro rfl
    rw [inv.childFree other free] at hasChild
    contradiction
  obtain ⟨childRuns, childKind, childParent⟩ :=
    inv.child other child (started.ran notNew isRunning) hasChild
  have childNotNew := ne_of_free free childRuns
  rw [started.isTerminal child childNotNew, started.parent child childNotNew]
  exact ⟨started.stillRuns childRuns, childKind, childParent⟩

theorem keeps_root (started : Started table target pid terminal isTerminal) (inv : table.Inv)
    {first second : Nat} (firstNe : first ≠ pid) (secondNe : second ≠ pid)
    (firstRuns : target.running first = true) (secondRuns : target.running second = true)
    (firstRoot : (target.links first).isTerminal = 1)
    (secondRoot : (target.links second).isTerminal = 1)
    (sameTerminal : (target.links first).terminal = (target.links second).terminal) :
    first = second := by
  rw [started.isTerminal first firstNe] at firstRoot
  rw [started.isTerminal second secondNe] at secondRoot
  rw [started.terminal first firstNe, started.terminal second secondNe] at sameTerminal
  exact inv.root first second (started.ran firstNe firstRuns) (started.ran secondNe secondRuns)
    firstRoot secondRoot sameTerminal

theorem keeps_leaf (started : Started table target pid terminal isTerminal) (inv : table.Inv)
    {first second : Nat} (firstNe : first ≠ pid) (secondNe : second ≠ pid)
    (firstRuns : target.running first = true) (secondRuns : target.running second = true)
    (firstLeaf : (table.links first).child = none)
    (secondLeaf : (table.links second).child = none)
    (sameTerminal : (target.links first).terminal = (target.links second).terminal) :
    first = second := by
  rw [started.terminal first firstNe, started.terminal second secondNe] at sameTerminal
  exact inv.leaf first second (started.ran firstNe firstRuns) (started.ran secondNe secondRuns)
    firstLeaf secondLeaf sameTerminal

end Started

namespace Inv

variable {table target : ProcessTable}

/-- The parent was the leaf of its terminal and now the new process is. -/
theorem spawnChild_leaf (inv : table.Inv) {parent pid : Nat} (distinct : pid ≠ parent)
    (parentRuns : table.running parent = true)
    (parentChildless : (table.links parent).child = none)
    (started : Started table target pid (table.links parent).terminal 0)
    (childOf : ∀ other, (target.links other).child =
      if other = parent then some pid else (table.links other).child)
    {first second : Nat} (firstRuns : target.running first = true)
    (secondRuns : target.running second = true) (firstLeaf : (target.links first).child = none)
    (secondLeaf : (target.links second).child = none)
    (sameTerminal : (target.links first).terminal = (target.links second).terminal) :
    first = second := by
  have notParent : ∀ other, (target.links other).child = none →
      other ≠ parent ∧ (table.links other).child = none := by
    intro other childless
    rw [childOf] at childless
    split at childless
    · contradiction
    · next notParent => exact ⟨notParent, childless⟩
  have onlyNew : ∀ other, target.running other = true → (target.links other).child = none →
      (target.links other).terminal = (table.links parent).terminal → other = pid := by
    intro other isRunning childless onTerminal
    by_contra notNew
    obtain ⟨notParent, wasChildless⟩ := notParent other childless
    rw [started.terminal other notNew] at onTerminal
    exact notParent (inv.leaf other parent (started.ran notNew isRunning) parentRuns
      wasChildless parentChildless onTerminal)
  by_cases here : (target.links first).terminal = (table.links parent).terminal
  · rw [onlyNew first firstRuns firstLeaf here,
      onlyNew second secondRuns secondLeaf (sameTerminal ▸ here)]
  · have elsewhere : ∀ other, (target.links other).terminal = (target.links first).terminal →
        other ≠ pid := by
      rintro other onFirst rfl
      rw [started.new] at onFirst
      exact here onFirst.symm
    exact started.keeps_leaf inv (elsewhere first rfl) (elsewhere second sameTerminal.symm)
      firstRuns secondRuns (notParent first firstLeaf).2 (notParent second secondLeaf).2
      sameTerminal

/-- The current process may start a child in any free slot. -/
theorem spawnChild (inv : table.Inv) {parent pid : Nat} (isCurrent : table.current = some parent)
    (parentRuns : table.running parent = true) (lower : 1 ≤ pid) (upper : pid < 8)
    (free : table.running pid = false) :
    (table.spawn pid (table.links parent).terminal 0).Inv := by
  have distinct : pid ≠ parent := (ne_of_free free parentRuns).symm
  have parentChildless := inv.current_child isCurrent parentRuns
  have started := inv.spawn_started (table.links parent).terminal 0 upper free
    (fun own => absurd (Option.some.inj (own.symm.trans isCurrent)) distinct)
  have childOf : ∀ other, ((table.spawn pid (table.links parent).terminal 0).links other).child =
      if other = parent then some pid else (table.links other).child := by
    intro other
    rw [spawn_child, isCurrent]
    by_cases same : other = parent
    · rw [if_pos same, if_pos ⟨congrArg some same.symm, rfl⟩]
    · rw [if_neg same, if_neg (fun both => same (Option.some.inj both.1).symm)]
  generalize table.spawn pid (table.links parent).terminal 0 = target at started childOf
  have parentStillRuns : target.running parent = true := started.stillRuns parentRuns
  apply inv.of_started started lower upper (inv.terminalLt parent parentRuns) (.inl rfl)
    (inv.second parent parentRuns) (inv.third parent parentRuns)
  · intro other stopped
    have notParent : other ≠ parent := (ne_of_free stopped parentStillRuns).symm
    rw [childOf, if_neg notParent]
    exact inv.childFree other (started.wasStopped stopped)
  · intro other isRunning isChild
    by_cases isNew : other = pid
    · refine ⟨parent, ?_, parentStillRuns, ?_, ?_, ?_⟩
      · rw [isNew, started.new, isCurrent]
      · exact fun same => distinct (isNew.symm.trans same.symm)
      · rw [isNew, started.new, started.terminal parent (Ne.symm distinct)]
      · rw [childOf, if_pos rfl, isNew]
    · apply started.keeps_parent inv free isNew isRunning isChild
      intro waiting waitingChild
      have notParent : waiting ≠ parent := by
        rintro rfl
        rw [parentChildless] at waitingChild
        contradiction
      rw [childOf, if_neg notParent, waitingChild]
  · intro other child isRunning hasChild
    rw [childOf] at hasChild
    by_cases isParent : other = parent
    · rw [if_pos isParent] at hasChild
      cases hasChild
      rw [started.new, isCurrent, isParent]
      exact ⟨(started.runs pid).mpr (.inl rfl), rfl, rfl⟩
    · rw [if_neg isParent] at hasChild
      exact started.keeps_child inv free isRunning hasChild
  · intro first second firstRuns secondRuns firstRoot secondRoot sameTerminal
    have notNew : ∀ other, (target.links other).isTerminal = 1 → other ≠ pid := by
      rintro other isRoot rfl
      rw [started.new] at isRoot
      simp at isRoot
    exact started.keeps_root inv (notNew first firstRoot) (notNew second secondRoot) firstRuns
      secondRuns firstRoot secondRoot sameTerminal
  · intro first second
    exact inv.spawnChild_leaf distinct parentRuns parentChildless started childOf

/-- A root may be started on a terminal that has no process. -/
theorem spawnRoot (inv : table.Inv) {pid terminal : Nat} (lower : 1 ≤ pid) (upper : pid < 8)
    (free : table.running pid = false) (terminalLt : terminal < 3)
    (second : terminal = 1 → table.launchedSecond = true)
    (third : terminal = 2 → table.launchedThird = true)
    (empty : ∀ other, table.running other = true → (table.links other).terminal ≠ terminal) :
    (table.spawn pid terminal 1).Inv := by
  have started := inv.spawn_started terminal 1 upper free (fun _ => by decide)
  have childOf : ∀ other, ((table.spawn pid terminal 1).links other).child =
      (table.links other).child := by
    intro other
    rw [spawn_child, if_neg (fun both => absurd both.2 (by decide))]
  generalize table.spawn pid terminal 1 = target at started childOf
  have onlyNew : ∀ other, target.running other = true →
      (target.links other).terminal = terminal → other = pid := by
    intro other isRunning onTerminal
    by_contra notNew
    rw [started.terminal other notNew] at onTerminal
    exact empty other (started.ran notNew isRunning) onTerminal
  -- On the new terminal there is the root alone; elsewhere nothing changes.
  have unique : ∀ first second, target.running first = true → target.running second = true →
      (target.links first).terminal = (target.links second).terminal →
      first = second ∨ (first ≠ pid ∧ second ≠ pid) := by
    intro first second firstRuns secondRuns sameTerminal
    by_cases here : (target.links first).terminal = terminal
    · left
      rw [onlyNew first firstRuns here, onlyNew second secondRuns (sameTerminal ▸ here)]
    · right
      constructor
      · rintro rfl
        rw [started.new] at here
        exact here rfl
      · rintro rfl
        rw [sameTerminal, started.new] at here
        exact here rfl
  apply inv.of_started started lower upper terminalLt (.inr rfl) second third
  · intro other stopped
    rw [childOf]
    exact inv.childFree other (started.wasStopped stopped)
  · intro other isRunning isChild
    have notNew : other ≠ pid := by
      rintro rfl
      rw [started.new] at isChild
      simp at isChild
    apply started.keeps_parent inv free notNew isRunning isChild
    intro waiting waitingChild
    rw [childOf, waitingChild]
  · intro other child isRunning hasChild
    rw [childOf] at hasChild
    exact started.keeps_child inv free isRunning hasChild
  · intro first second firstRuns secondRuns firstRoot secondRoot sameTerminal
    rcases unique first second firstRuns secondRuns sameTerminal with same | ⟨firstNe, secondNe⟩
    · exact same
    · exact started.keeps_root inv firstNe secondNe firstRuns secondRuns firstRoot secondRoot
        sameTerminal
  · intro first second firstRuns secondRuns firstLeaf secondLeaf sameTerminal
    rcases unique first second firstRuns secondRuns sameTerminal with same | ⟨firstNe, secondNe⟩
    · exact same
    · rw [childOf] at firstLeaf secondLeaf
      exact started.keeps_leaf inv firstNe secondNe firstRuns secondRuns firstLeaf secondLeaf
        sameTerminal

/-! ## Leaving -/

/-- A stopped process is gone and the others run as before. -/
theorem stop_running {pid other : Nat} :
    (table.stop pid).running other = true ↔ other ≠ pid ∧ table.running other = true := by
  by_cases same : other = pid
  · simp [ProcessTable.stop, same]
  · simp [ProcessTable.stop, same]

theorem stop_count (inv : table.Inv) {pid : Nat} (isRunning : table.running pid = true) :
    (table.stop pid).total = runningCount (table.stop pid).running := by
  have counted := runningCount_stop (inv.range pid isRunning).2 isRunning
  change table.total - 1 = (runningCount (Function.update table.running pid false) : Int)
  rw [inv.count]
  omega

/-- No other process has the current one as its parent. -/
theorem parent_ne_current (inv : table.Inv) {pid other waiting : Nat}
    (isCurrent : table.current = some pid) (isRunning : table.running pid = true)
    (waitingChild : (table.links waiting).child = some other) : waiting ≠ pid := by
  rintro rfl
  rw [inv.current_child isCurrent isRunning] at waitingChild
  contradiction

/-- A root may leave; it stays current. -/
theorem stopRoot (inv : table.Inv) {pid : Nat} (isCurrent : table.current = some pid)
    (isRunning : table.running pid = true) (isRoot : (table.links pid).isTerminal = 1) :
    (table.stop pid).Inv := by
  have childless := inv.current_child isCurrent isRunning
  constructor
  · intro other runs
    exact inv.range other (stop_running.mp runs).2
  · exact inv.stop_count isRunning
  · intro other runs
    exact inv.pidField other (stop_running.mp runs).2
  · intro other stopped
    by_cases same : other = pid
    · rw [same]
      exact childless
    · apply inv.childFree
      simpa [ProcessTable.stop, same] using stopped
  · intro other runs
    exact inv.kind other (stop_running.mp runs).2
  · intro other runs isChild
    obtain ⟨waiting, waitingEq, waitingRuns, waitingNe, sameTerminal, waitingChild⟩ :=
      inv.parent other (stop_running.mp runs).2 isChild
    have notPid := inv.parent_ne_current isCurrent isRunning waitingChild
    exact ⟨waiting, waitingEq, stop_running.mpr ⟨notPid, waitingRuns⟩, waitingNe, sameTerminal,
      waitingChild⟩
  · intro other child runs hasChild
    obtain ⟨childRuns, childKind, childParent⟩ :=
      inv.child other child (stop_running.mp runs).2 hasChild
    have notPid : child ≠ pid := by
      rintro rfl
      rw [isRoot] at childKind
      contradiction
    exact ⟨stop_running.mpr ⟨notPid, childRuns⟩, childKind, childParent⟩
  · intro first second firstRuns secondRuns
    exact inv.root first second (stop_running.mp firstRuns).2 (stop_running.mp secondRuns).2
  · intro first second firstRuns secondRuns
    exact inv.leaf first second (stop_running.mp firstRuns).2 (stop_running.mp secondRuns).2
  · intro other runs
    exact inv.terminalLt other (stop_running.mp runs).2
  · intro noCurrent
    exact absurd (isCurrent.symm.trans noCurrent) (by simp)
  · intro other isOther
    cases isCurrent.symm.trans isOther
    obtain ⟨lower, upper, pidField, -⟩ := inv.current pid isCurrent
    exact ⟨lower, upper, pidField, .inr ⟨Function.update_self .., isRoot⟩⟩
  · intro other runs
    exact inv.second other (stop_running.mp runs).2
  · intro other runs
    exact inv.third other (stop_running.mp runs).2

/-- Leaving clears the child pointer of the parent. -/
theorem leave_child (table : ProcessTable) (pid parent other : Nat) :
    ((table.leave pid parent).links other).child =
      if other = parent then none else (table.links other).child := by
  by_cases same : other = parent
  · simp [leave, same]
  · simp [leave, same]

/-- It changes no other link. -/
theorem leave_view {β : Type u} (view : Links → β)
    (childIrrelevant : ∀ (links : Links) (child : Option Nat),
      view { links with child := child } = view links)
    (table : ProcessTable) (pid parent other : Nat) :
    view ((table.leave pid parent).links other) = view (table.links other) := by
  by_cases same : other = parent
  · rw [same]
    exact (congrArg view (Function.update_self ..)).trans (childIrrelevant _ none)
  · exact congrArg view (Function.update_of_ne same ..)

theorem leave_parent (table : ProcessTable) (pid parent other : Nat) :
    ((table.leave pid parent).links other).parent = (table.links other).parent :=
  leave_view Links.parent (fun _ _ => rfl) table pid parent other

theorem leave_terminal (table : ProcessTable) (pid parent other : Nat) :
    ((table.leave pid parent).links other).terminal = (table.links other).terminal :=
  leave_view Links.terminal (fun _ _ => rfl) table pid parent other

theorem leave_isTerminal (table : ProcessTable) (pid parent other : Nat) :
    ((table.leave pid parent).links other).isTerminal = (table.links other).isTerminal :=
  leave_view Links.isTerminal (fun _ _ => rfl) table pid parent other

theorem leave_pid (table : ProcessTable) (pid parent other : Nat) :
    ((table.leave pid parent).links other).pid = (table.links other).pid :=
  leave_view Links.pid (fun _ _ => rfl) table pid parent other

/-- The leaving process was the leaf of its terminal; its parent takes the
place. -/
theorem leaveChild_leaf (inv : table.Inv) {pid parent : Nat}
    (isRunning : table.running pid = true) (childless : (table.links pid).child = none)
    (sameTerminal : (table.links parent).terminal = (table.links pid).terminal)
    {first second : Nat} (firstRuns : (table.stop pid).running first = true)
    (secondRuns : (table.stop pid).running second = true)
    (firstLeaf : ((table.leave pid parent).links first).child = none)
    (secondLeaf : ((table.leave pid parent).links second).child = none)
    (onSame : (table.links first).terminal = (table.links second).terminal) :
    first = second := by
  have onlyParent : ∀ other, (table.stop pid).running other = true →
      ((table.leave pid parent).links other).child = none →
      (table.links other).terminal = (table.links pid).terminal → other = parent := by
    intro other runs otherChildless onTerminal
    obtain ⟨otherNe, otherRuns⟩ := stop_running.mp runs
    by_contra notParent
    rw [leave_child, if_neg notParent] at otherChildless
    exact otherNe (inv.leaf other pid otherRuns isRunning otherChildless childless onTerminal)
  by_cases here : (table.links first).terminal = (table.links pid).terminal
  · rw [onlyParent first firstRuns firstLeaf here,
      onlyParent second secondRuns secondLeaf (onSame ▸ here)]
  · have notParent : ∀ other, (table.links other).terminal = (table.links first).terminal →
        other ≠ parent := by
      rintro other onFirst rfl
      exact here (onFirst.symm.trans sameTerminal)
    rw [leave_child, if_neg (notParent first rfl)] at firstLeaf
    rw [leave_child, if_neg (notParent second onSame.symm)] at secondLeaf
    exact inv.leaf first second (stop_running.mp firstRuns).2 (stop_running.mp secondRuns).2
      firstLeaf secondLeaf onSame

/-- A child may leave to its parent. -/
theorem leaveChild (inv : table.Inv) {pid parent : Nat} (isCurrent : table.current = some pid)
    (isRunning : table.running pid = true) (isChild : (table.links pid).isTerminal = 0)
    (parentEq : (table.links pid).parent = some parent) : (table.leave pid parent).Inv := by
  have childless := inv.current_child isCurrent isRunning
  obtain ⟨waiting, waitingEq, parentRuns, parentNe, sameTerminal, parentChild⟩ :=
    inv.parent pid isRunning isChild
  cases parentEq.symm.trans waitingEq
  constructor
  · intro other runs
    exact inv.range other (stop_running.mp runs).2
  · exact inv.stop_count isRunning
  · intro other runs
    rw [leave_pid]
    exact inv.pidField other (stop_running.mp runs).2
  · intro other stopped
    rw [leave_child]
    split
    · rfl
    · by_cases same : other = pid
      · rw [same]
        exact childless
      · apply inv.childFree
        simpa [leave, ProcessTable.stop, same] using stopped
  · intro other runs
    rw [leave_isTerminal]
    exact inv.kind other (stop_running.mp runs).2
  · intro other runs otherChild
    obtain ⟨otherNe, otherRuns⟩ := stop_running.mp runs
    rw [leave_isTerminal] at otherChild
    obtain ⟨waits, waitsEq, waitsRuns, waitsNe, waitsTerminal, waitsChild⟩ :=
      inv.parent other otherRuns otherChild
    have notPid := inv.parent_ne_current isCurrent isRunning waitsChild
    have notParent : waits ≠ parent := by
      rintro rfl
      exact otherNe (Option.some.inj (waitsChild.symm.trans parentChild))
    refine ⟨waits, ?_, stop_running.mpr ⟨notPid, waitsRuns⟩, waitsNe, ?_, ?_⟩
    · rw [leave_parent, waitsEq]
    · rw [leave_terminal, leave_terminal, waitsTerminal]
    · rw [leave_child, if_neg notParent, waitsChild]
  · intro other child runs hasChild
    rw [leave_child] at hasChild
    split at hasChild
    · contradiction
    · next notParent =>
        obtain ⟨childRuns, childKind, childParent⟩ :=
          inv.child other child (stop_running.mp runs).2 hasChild
        have notPid : child ≠ pid := by
          rintro rfl
          exact notParent (Option.some.inj (childParent.symm.trans parentEq))
        rw [leave_isTerminal, leave_parent]
        exact ⟨stop_running.mpr ⟨notPid, childRuns⟩, childKind, childParent⟩
  · intro first second firstRuns secondRuns firstRoot secondRoot onSame
    rw [leave_isTerminal] at firstRoot secondRoot
    rw [leave_terminal, leave_terminal] at onSame
    exact inv.root first second (stop_running.mp firstRuns).2 (stop_running.mp secondRuns).2
      firstRoot secondRoot onSame
  · intro first second firstRuns secondRuns firstLeaf secondLeaf onSame
    rw [leave_terminal, leave_terminal] at onSame
    exact inv.leaveChild_leaf isRunning childless sameTerminal firstRuns secondRuns firstLeaf
      secondLeaf onSame
  · intro other runs
    rw [leave_terminal]
    exact inv.terminalLt other (stop_running.mp runs).2
  · intro noCurrent
    contradiction
  · intro other isOther
    have parentPid := inv.pidField parent parentRuns
    have otherEq : other = parent := by
      have same : some (table.links parent).pid = some other := isOther
      rw [parentPid] at same
      exact (Option.some.inj same).symm
    obtain ⟨lower, upper⟩ := inv.range parent parentRuns
    rw [otherEq, leave_pid, leave_child, if_pos rfl]
    exact ⟨lower, upper, parentPid, .inl ⟨stop_running.mpr ⟨parentNe, parentRuns⟩, rfl⟩⟩
  · intro other runs
    rw [leave_terminal]
    exact inv.second other (stop_running.mp runs).2
  · intro other runs
    rw [leave_terminal]
    exact inv.third other (stop_running.mp runs).2

end Inv

end ProcessTable

end PonyOS.Process
