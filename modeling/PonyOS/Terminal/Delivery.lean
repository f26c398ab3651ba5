import PonyOS.Terminal.Line

/-!
# Delivery of typed lines

The invariant behind delivery: a reader past its test is alone on its
terminal; if it has not copied yet, the line it was promised is still pending;
if it has copied, it holds that line and the line is marked as copied.  A
raised flag always stands for a pending line or for a reader that is about to
lower it.  Each event keeps the invariant under the condition of the previous
module.
-/

namespace PonyOS.Terminal.LineSystem

open PonyOS.Lib.Loop
open PonyOS.Lib.Transition
open PonyOS.Lib.Word
open PonyOS.Paging

universe u

variable {home : Nat → Fin 3}

/-- What every reachable state satisfies when all steps are quiet. -/
structure Inv (home : Nat → Fin 3) (system : LineSystem) : Prop where
  driven : Driven system.terminals.console system.terminals.keyboard
  active : system.terminals.console.activeTerminal = home system.current
  delivered : system.Delivered
  serial : ∀ terminalId n, (terminalId, n) ∈ system.copyLog → n ≤ system.submitted terminalId
  alone : ∀ first second, home first = home second →
    (system.phase first).pastTest = true → (system.phase second).pastTest = true →
      first = second
  tested : ∀ pid count, system.phase pid = .tested count → system.Pending (home pid)
  copied : ∀ pid count bytes, system.phase pid = .copied count bytes →
    ((home pid).val, system.submitted (home pid)) ∈ system.copyLog ∧
      ∀ k, k < count.toNat → k < printLim → bytes[k]? = some (system.line (home pid) k)
  raised : ∀ terminalId, system.ready terminalId = true →
    system.Pending terminalId ∨ CopiedOn home system terminalId

/-- A free row holds no pending line. -/
theorem Inv.not_pending {system : LineSystem} (inv : Inv home system) {terminalId : Nat}
    (free : RowFree home system terminalId) : ¬ system.Pending terminalId := by
  intro pending
  rcases free with lowered | ⟨pid, count, bytes, rfl, phase⟩
  · have raised := (inv.delivered.pending terminalId pending).1
    rw [lowered] at raised
    contradiction
  · exact pending.2 (inv.copied pid count bytes phase).1

/-- Events that touch neither processes nor history keep the invariant when
they keep the flags and every row with a pending line. -/
theorem Inv.congr {system : LineSystem} (inv : Inv home system) {terminals : Terminals}
    (driven : Driven terminals.console terminals.keyboard)
    (active : terminals.console.activeTerminal = system.terminals.console.activeTerminal)
    (flags : terminals.keyboard.terminalReadReady =
      system.terminals.keyboard.terminalReadReady)
    (rows : ∀ terminalId k, system.Pending terminalId → k < printLim →
      terminals.keyboard.printBuffer (printRow terminalId + k) =
        system.rowByte terminalId k) :
    Inv home { system with terminals := terminals } := by
  constructor
  · exact driven
  · exact active.trans inv.active
  · constructor
    · exact inv.delivered.intact
    · exact inv.delivered.once
    · intro terminalId pending
      obtain ⟨raised, holds⟩ := inv.delivered.pending terminalId pending
      constructor
      · exact (congrFun flags terminalId).trans raised
      · intro k inRow
        exact (rows terminalId k pending inRow).trans (holds k inRow)
  · exact inv.serial
  · exact inv.alone
  · exact inv.tested
  · exact inv.copied
  · intro terminalId raised
    exact inv.raised terminalId ((congrFun flags terminalId).symm.trans raised)

/-- Events on the console alone keep the invariant. -/
theorem Inv.redraw {system : LineSystem} (inv : Inv home system) {console : Console}
    (driven : Driven console system.terminals.keyboard)
    (active : console.activeTerminal = system.terminals.console.activeTerminal) :
    Inv home { system with terminals := { system.terminals with console := console } } :=
  inv.congr driven active rfl fun _ _ _ _ => rfl

/-! ## Keys and switches -/

/-- The system after a line was submitted on a terminal. -/
def submit (system : LineSystem) (terminals : Terminals) (shown : Nat) (text : Nat → UInt8) :
    LineSystem :=
  { system with
    terminals := terminals
    submitted := Function.update system.submitted shown (system.submitted shown + 1)
    line := Function.update system.line shown text }

theorem pending_submit_of_ne (system : LineSystem) (terminals : Terminals) {shown : Nat}
    (text : Nat → UInt8) {terminalId : Nat} (other : terminalId ≠ shown) :
    (system.submit terminals shown text).Pending terminalId ↔ system.Pending terminalId := by
  simp [Pending, submit, other]

/-- The serial number of a new line is above every number in the log. -/
theorem Inv.pending_submit {system : LineSystem} (inv : Inv home system) (terminals : Terminals)
    (shown : Nat) (text : Nat → UInt8) :
    (system.submit terminals shown text).Pending shown := by
  constructor
  · simp [submit]
  · simp only [submit, Function.update_self]
    intro member
    have bound := inv.serial shown _ member
    omega

/-- A submitted line takes the place of the pending one. -/
theorem Inv.submit {system : LineSystem} (inv : Inv home system) {terminals : Terminals}
    {shown : Nat} {text : Nat → UInt8}
    (driven : Driven terminals.console terminals.keyboard)
    (active : terminals.console.activeTerminal = system.terminals.console.activeTerminal)
    (filled : ∀ k, k < printLim → terminals.keyboard.printBuffer (printRow shown + k) = text k)
    (kept : ∀ other k, other ≠ shown → k < printLim →
      terminals.keyboard.printBuffer (printRow other + k) = system.rowByte other k)
    (flags : terminals.keyboard.terminalReadReady =
      Function.update system.terminals.keyboard.terminalReadReady shown true)
    (quiet : ¬ CopiedOn home system shown) :
    Inv home (system.submit terminals shown text) := by
  constructor
  · exact driven
  · exact active.trans inv.active
  · constructor
    · exact inv.delivered.intact
    · exact inv.delivered.once
    · intro terminalId pending
      by_cases here : terminalId = shown
      · subst here
        simp only [LineSystem.submit, ready, rowByte, flags, Function.update_self]
        exact ⟨trivial, filled⟩
      · obtain ⟨raised, holds⟩ := inv.delivered.pending terminalId
          ((system.pending_submit_of_ne terminals text here).mp pending)
        simp only [LineSystem.submit, ready, rowByte, flags, Function.update_of_ne here]
        constructor
        · exact raised
        · intro k inRow
          exact (kept terminalId k here inRow).trans (holds k inRow)
  · intro terminalId n member
    have bound := inv.serial terminalId n member
    by_cases here : terminalId = shown
    · subst here
      simp only [LineSystem.submit, Function.update_self]
      exact Nat.le_succ_of_le bound
    · simp only [LineSystem.submit, Function.update_of_ne here]
      exact bound
  · exact inv.alone
  · intro pid count phase
    by_cases here : (home pid).val = shown
    · rw [here]
      exact inv.pending_submit terminals shown text
    · exact (system.pending_submit_of_ne terminals text here).mpr (inv.tested pid count phase)
  · intro pid count bytes phase
    have elsewhere : (home pid).val ≠ shown := by
      intro here
      exact quiet ⟨pid, count, bytes, here, phase⟩
    simp only [LineSystem.submit, Function.update_of_ne elsewhere]
    exact inv.copied pid count bytes phase
  · intro terminalId raised
    by_cases here : terminalId = shown
    · subst here
      exact .inl (inv.pending_submit terminals terminalId text)
    · simp only [LineSystem.submit, ready, flags, Function.update_of_ne here] at raised
      rcases inv.raised terminalId raised with pending | reader
      · exact .inl ((system.pending_submit_of_ne terminals text here).mpr pending)
      · exact .inr reader

theorem Inv.key {system : LineSystem} (inv : Inv home system) (pidFree : Bool) (c : UInt8)
    (quiet : Quiet home system (.key pidFree c)) : Inv home (system.key pidFree c) := by
  by_cases enter : c.toNat = scancodeEnter
  · obtain ⟨filled, kept, flags⟩ := scancodeProcessing_enter consoleOps pidFree
      system.terminals.console system.terminals.keyboard enter
    have display : consoleOps.displayTerminal (makeBreak consoleOps pidFree
        system.terminals.console system.terminals.keyboard c.toNat).screen =
        system.terminals.console.displayTerminal := by
      rw [enter]
      exact makeBreak_enter_display inv.driven.coherent pidFree system.terminals.keyboard
    rw [display] at filled kept flags
    rw [LineSystem.key, if_pos enter]
    exact inv.submit (scancodeProcessing_simulates inv.driven pidFree c).driven
      (scancodeProcessing_activeTerminal inv.driven pidFree c) filled kept flags (quiet enter)
  · obtain ⟨rows, flags⟩ := scancodeProcessing_rows consoleOps pidFree
      system.terminals.console system.terminals.keyboard enter
    rw [LineSystem.key, if_neg enter]
    apply inv.congr
    · exact (scancodeProcessing_simulates inv.driven pidFree c).driven
    · exact scancodeProcessing_activeTerminal inv.driven pidFree c
    · exact flags
    · intro terminalId k _ _
      exact congrFun rows _

theorem Inv.schedule {system : LineSystem} (inv : Inv home system) (pid : Nat) :
    Inv home { system with
      current := pid
      terminals := { system.terminals with
        console := system.terminals.console.setActiveTerminal (home pid) } } := by
  constructor
  · exact inv.driven.setActiveTerminal (home pid).isLt
  · rfl
  · exact ⟨inv.delivered.intact, inv.delivered.once, inv.delivered.pending⟩
  · exact inv.serial
  · exact inv.alone
  · exact inv.tested
  · exact inv.copied
  · exact inv.raised

/-! ## Output -/

/-- What `terminal_write` leaves: the row holds the text and a zero after it,
all other bytes of `print_buffer` are kept, and the text is on the screen. -/
theorem terminalWrite_eq_some {terminals target : Terminals} {buf : Nat → UInt8}
    {count value : Int} (written : terminals.terminalWrite buf count = some (value, target)) :
    ∃ (lim : Nat) (printBuffer : Nat → UInt8), (lim : Int) = min count printLim ∧
      (∀ k, k < printRow terminals.console.activeTerminal ∨
          printRow terminals.console.activeTerminal + lim < k →
        printBuffer k = terminals.keyboard.printBuffer k) ∧
      target =
        { console := terminals.console.putsScroll
            (fun index => printBuffer (printRow terminals.console.activeTerminal + index)) lim
          keyboard := { terminals.keyboard with printBuffer := printBuffer } } := by
  unfold Terminals.terminalWrite at written
  have limEq : (if count < (printLim : Int) then count else (printLim : Int)) =
      min count printLim := by
    split <;> omega
  rw [limEq] at written
  by_cases negative : min count (printLim : Int) < 0
  · rw [if_pos negative] at written
    contradiction
  · rw [if_neg negative, Option.some.injEq, Prod.mk.injEq] at written
    obtain ⟨-, rfl⟩ := written
    have cast : ((min count (printLim : Int)).toNat : Int) = min count printLim := by omega
    refine ⟨(min count (printLim : Int)).toNat, fun k =>
      if printRow terminals.console.activeTerminal ≤ k ∧
          k < printRow terminals.console.activeTerminal + (min count (printLim : Int)).toNat then
        buf (k - printRow terminals.console.activeTerminal)
      else if k = printRow terminals.console.activeTerminal +
          (min count (printLim : Int)).toNat then 0
      else terminals.keyboard.printBuffer k, cast, ?_, by rw [cast]⟩
    intro k outside
    dsimp only
    rw [if_neg (by omega), if_neg (by omega)]

theorem Inv.terminalWrite {system : LineSystem} (inv : Inv home system) {buf : Nat → UInt8}
    {count value : Int} {target : Terminals} (quiet : Quiet home system (.terminalWrite buf count))
    (written : system.terminals.terminalWrite buf count = some (value, target)) :
    Inv home { system with terminals := target } := by
  obtain ⟨ownFree, nextFree⟩ := quiet
  obtain ⟨lim, printBuffer, limEq, kept, rfl⟩ := terminalWrite_eq_some written
  obtain ⟨driven, active, -⟩ := putsScroll_driven inv.driven
    (fun index => printBuffer (printRow system.terminals.console.activeTerminal + index)) lim
  apply inv.congr
  · exact driven.congr rfl
  · exact active
  · rfl
  · intro terminalId k pending inRow
    -- The text stays inside a free row; only the zero can fall into the next one.
    have notOwn : terminalId ≠ system.terminals.console.activeTerminal := by
      rintro rfl
      exact inv.not_pending ownFree pending
    have notNext : (printLim : Int) ≤ count →
        terminalId ≠ system.terminals.console.activeTerminal + 1 := by
      rintro full rfl
      exact inv.not_pending (nextFree full) pending
    apply kept
    unfold printRow printLim at *
    omega

/-! ## The reader -/

theorem enter_phase_of_ne (system : LineSystem) (next : ReadPhase) {pid : Nat}
    (other : pid ≠ system.current) : (system.enter next).phase pid = system.phase pid :=
  Function.update_of_ne other ..

theorem enter_phase_self (system : LineSystem) (next : ReadPhase) :
    (system.enter next).phase system.current = next :=
  Function.update_self ..

theorem enter_phase_past (system : LineSystem) {next : ReadPhase}
    (after : next.pastTest = false) {pid : Nat}
    (past : ((system.enter next).phase pid).pastTest = true) :
    (system.enter next).phase pid = system.phase pid := by
  apply enter_phase_of_ne
  rintro rfl
  rw [enter_phase_self, after] at past
  contradiction

theorem Inv.enter {system : LineSystem} (inv : Inv home system) {next : ReadPhase}
    (before : (system.phase system.current).pastTest = false)
    (after : next.pastTest = false) : Inv home (system.enter next) := by
  have reader : ∀ terminalId, CopiedOn home system terminalId →
      CopiedOn home (system.enter next) terminalId := by
    rintro terminalId ⟨pid, count, bytes, here, phase⟩
    have other : pid ≠ system.current := by
      rintro rfl
      simp [phase, ReadPhase.pastTest] at before
    exact ⟨pid, count, bytes, here, (enter_phase_of_ne system _ other).trans phase⟩
  constructor
  · exact inv.driven
  · exact inv.active
  · exact ⟨inv.delivered.intact, inv.delivered.once, inv.delivered.pending⟩
  · exact inv.serial
  · intro first second sameHome firstPast secondPast
    rw [enter_phase_past system after firstPast] at firstPast
    rw [enter_phase_past system after secondPast] at secondPast
    exact inv.alone first second sameHome firstPast secondPast
  · intro pid count phase
    have same := enter_phase_past system after (by rw [phase]; rfl)
    exact inv.tested pid count (same ▸ phase)
  · intro pid count bytes phase
    have same := enter_phase_past system after (by rw [phase]; rfl)
    exact inv.copied pid count bytes (same ▸ phase)
  · intro terminalId raised
    rcases inv.raised terminalId raised with pending | copied
    · exact .inl pending
    · exact .inr (reader terminalId copied)

/-- A process that passes the test is promised the pending line. -/
theorem Inv.testFlag {system : LineSystem} (inv : Inv home system) {count : Int}
    (passed : system.terminals.lineReady = true)
    (quiet : Quiet home system .testFlag) :
    Inv home (system.enter (.tested count)) := by
  have free := quiet passed
  rw [inv.active] at free
  have elsewhere : ∀ pid, (system.phase pid).pastTest = true →
      home pid ≠ home system.current := by
    intro pid past here
    rw [free pid (congrArg Fin.val here)] at past
    contradiction
  have pending : system.Pending (home system.current) := by
    have raised : system.ready (home system.current) = true := by
      rw [← inv.active]
      exact passed
    rcases inv.raised _ raised with pending | ⟨pid, copiedCount, bytes, here, phase⟩
    · exact pending
    · have quietReader := free pid here
      rw [phase] at quietReader
      contradiction
  constructor
  · exact inv.driven
  · exact inv.active
  · exact ⟨inv.delivered.intact, inv.delivered.once, inv.delivered.pending⟩
  · exact inv.serial
  · intro first second sameHome firstPast secondPast
    by_cases firstHere : first = system.current
    · by_cases secondHere : second = system.current
      · exact firstHere.trans secondHere.symm
      · rw [enter_phase_of_ne system _ secondHere] at secondPast
        exact absurd (sameHome.symm.trans (congrArg home firstHere))
          (elsewhere second secondPast)
    · rw [enter_phase_of_ne system _ firstHere] at firstPast
      by_cases secondHere : second = system.current
      · exact absurd (sameHome.trans (congrArg home secondHere)) (elsewhere first firstPast)
      · rw [enter_phase_of_ne system _ secondHere] at secondPast
        exact inv.alone first second sameHome firstPast secondPast
  · intro pid testedCount phase
    by_cases here : pid = system.current
    · rw [here]
      exact pending
    · rw [enter_phase_of_ne system _ here] at phase
      exact inv.tested pid testedCount phase
  · intro pid copiedCount bytes phase
    by_cases here : pid = system.current
    · rw [here, enter_phase_self] at phase
      contradiction
    · rw [enter_phase_of_ne system _ here] at phase
      exact inv.copied pid copiedCount bytes phase
  · intro terminalId raised
    rcases inv.raised terminalId raised with stillPending | ⟨pid, copiedCount, bytes, on, phase⟩
    · exact .inl stillPending
    · have other : pid ≠ system.current := by
        rintro rfl
        exact elsewhere _ (by rw [phase]; rfl) rfl
      exact .inr ⟨pid, copiedCount, bytes, on,
        (enter_phase_of_ne system _ other).trans phase⟩

/-- The reader past its test is the only one of its terminal. -/
theorem Inv.others_elsewhere {system : LineSystem} (inv : Inv home system)
    (past : (system.phase system.current).pastTest = true) {pid : Nat}
    (other : pid ≠ system.current) (otherPast : (system.phase pid).pastTest = true) :
    (home pid).val ≠ (home system.current).val := by
  intro here
  exact other (inv.alone pid system.current (Fin.ext here) otherPast past)

/-- The copy takes the pending line and marks it. -/
theorem Inv.copyOut {system : LineSystem} (inv : Inv home system) {count : Int}
    (phaseEq : system.phase system.current = .tested count) :
    Inv home { system.enter (.copied count (system.terminals.readLine count.toNat)) with
      copyLog := (system.terminals.console.activeTerminal,
        system.submitted system.terminals.console.activeTerminal) :: system.copyLog } := by
  rw [inv.active]
  have past : (system.phase system.current).pastTest = true := by
    rw [phaseEq]
    rfl
  have pending := inv.tested system.current count phaseEq
  obtain ⟨raisedHere, holds⟩ := inv.delivered.pending _ pending
  constructor
  · exact inv.driven
  · exact inv.active
  · constructor
    · exact inv.delivered.intact
    · exact List.nodup_cons.mpr ⟨pending.2, inv.delivered.once⟩
    · intro terminalId stillPending
      apply inv.delivered.pending terminalId
      exact ⟨stillPending.1, fun member => stillPending.2 (List.mem_cons_of_mem _ member)⟩
  · intro terminalId n member
    rcases List.mem_cons.mp member with here | earlier
    · obtain ⟨rfl, rfl⟩ := Prod.mk.inj here
      exact Nat.le_refl _
    · exact inv.serial terminalId n earlier
  · intro first second sameHome firstPast secondPast
    have pastOf : ∀ pid, ((system.enter (.copied count
        (system.terminals.readLine count.toNat))).phase pid).pastTest = true →
        (system.phase pid).pastTest = true := by
      intro pid pidPast
      by_cases here : pid = system.current
      · rw [here]
        exact past
      · rw [enter_phase_of_ne system _ here] at pidPast
        exact pidPast
    exact inv.alone first second sameHome (pastOf first firstPast) (pastOf second secondPast)
  · intro pid testedCount phase
    have other : pid ≠ system.current := by
      rintro rfl
      rw [enter_phase_self] at phase
      contradiction
    rw [enter_phase_of_ne system _ other] at phase
    have elsewhere := inv.others_elsewhere past other (by rw [phase]; rfl)
    obtain ⟨positive, fresh⟩ := inv.tested pid testedCount phase
    refine ⟨positive, ?_⟩
    intro member
    rcases List.mem_cons.mp member with here | earlier
    · exact elsewhere (Prod.mk.inj here).1
    · exact fresh earlier
  · intro pid copiedCount bytes phase
    by_cases here : pid = system.current
    · subst here
      rw [enter_phase_self] at phase
      cases phase
      constructor
      · exact List.mem_cons_self
      · intro k inCount inRow
        have byteEq := holds k inRow
        rw [rowByte, ← inv.active] at byteEq
        simp only [Terminals.readLine, List.getElem?_map, List.getElem?_range inCount,
          Option.map_some, byteEq]
        rw [inv.active]
        rfl
    · rw [enter_phase_of_ne system _ here] at phase
      obtain ⟨member, intact⟩ := inv.copied pid copiedCount bytes phase
      exact ⟨List.mem_cons_of_mem _ member, intact⟩
  · intro terminalId raised
    by_cases here : terminalId = (home system.current).val
    · exact .inr ⟨system.current, count, _, here.symm, enter_phase_self system _⟩
    · rcases inv.raised terminalId raised with stillPending |
        ⟨pid, copiedCount, bytes, on, phase⟩
      · left
        refine ⟨stillPending.1, ?_⟩
        intro member
        rcases List.mem_cons.mp member with new | earlier
        · exact here (Prod.mk.inj new).1
        · exact stillPending.2 earlier
      · have other : pid ≠ system.current := by
          rintro rfl
          exact here on.symm
        exact .inr ⟨pid, copiedCount, bytes, on, (enter_phase_of_ne system _ other).trans phase⟩

/-- The flag is lowered by the one reader that has copied the line. -/
theorem Inv.clearFlag {system : LineSystem} (inv : Inv home system) {count : Int}
    {bytes : List UInt8} (phaseEq : system.phase system.current = .copied count bytes) :
    Inv home { system.enter .idle with
      terminals := system.terminals.clearReady
      completed :=
        { count := count
          bytes := bytes
          latest := system.line system.terminals.console.activeTerminal } ::
          system.completed } := by
  obtain ⟨marked, intact⟩ := inv.copied system.current count bytes phaseEq
  constructor
  · exact inv.driven.congr rfl
  · exact inv.active
  · constructor
    · intro delivery member k inCount inRow
      rcases List.mem_cons.mp member with rfl | earlier
      · rw [inv.active]
        exact intact k inCount inRow
      · exact inv.delivered.intact delivery earlier k inCount inRow
    · exact inv.delivered.once
    · intro terminalId pending
      have elsewhere : terminalId ≠ system.terminals.console.activeTerminal := by
        rintro rfl
        rw [inv.active] at pending
        exact pending.2 marked
      obtain ⟨raised, holds⟩ := inv.delivered.pending terminalId pending
      constructor
      · simp only [ready, Terminals.clearReady, Function.update_of_ne elsewhere]
        exact raised
      · exact holds
  · exact inv.serial
  · intro first second sameHome firstPast secondPast
    rw [enter_phase_past system rfl firstPast] at firstPast
    rw [enter_phase_past system rfl secondPast] at secondPast
    exact inv.alone first second sameHome firstPast secondPast
  · intro pid testedCount phase
    have same := enter_phase_past system rfl (by rw [phase]; rfl)
    exact inv.tested pid testedCount (same ▸ phase)
  · intro pid copiedCount copiedBytes phase
    have same := enter_phase_past system rfl (by rw [phase]; rfl)
    exact inv.copied pid copiedCount copiedBytes (same ▸ phase)
  · intro terminalId raised
    have elsewhere : terminalId ≠ system.terminals.console.activeTerminal := by
      rintro rfl
      simp [ready, Terminals.clearReady] at raised
    simp only [ready, Terminals.clearReady, Function.update_of_ne elsewhere] at raised
    rcases inv.raised terminalId raised with pending | ⟨pid, copiedCount, copiedBytes, on, phase⟩
    · exact .inl pending
    · have other : pid ≠ system.current := by
        rintro rfl
        exact elsewhere (on.symm.trans inv.active.symm)
      exact .inr ⟨pid, copiedCount, copiedBytes, on,
        (enter_phase_of_ne system _ other).trans phase⟩

/-! ## Whole runs -/

/-- One quiet event keeps the invariant. -/
theorem Inv.step {system target : LineSystem} {event : LineEvent} {reply : Unit}
    (inv : Inv home system) (quiet : Quiet home system event)
    (stepped : LineSystem.step home system event = some (reply, target)) :
    Inv home target := by
  cases event with
  | key pidFree c =>
      cases stepped
      exact inv.key pidFree c quiet
  | setDisiplayTerminal terminalId =>
      simp only [LineSystem.step, Option.some.injEq, Prod.mk.injEq] at stepped
      rw [← stepped.2]
      exact inv.redraw (inv.driven.setDisiplayTerminal terminalId.isLt)
        (inv.driven.coherent.setDisiplayTerminal_activeTerminal terminalId.isLt)
  | schedule pid =>
      cases stepped
      exact inv.schedule pid
  | terminalWrite buf count =>
      simp only [LineSystem.step] at stepped
      split at stepped
      · obtain ⟨⟨value, written⟩, writtenEq, targetEq⟩ := Option.map_eq_some_iff.mp stepped
        cases targetEq
        exact inv.terminalWrite quiet writtenEq
      · contradiction
  | terminalRead count =>
      simp only [LineSystem.step] at stepped
      split at stepped
      · next phaseEq =>
          cases stepped
          apply inv.enter
          · rw [phaseEq]
            rfl
          · rfl
      · contradiction
  | testFlag =>
      simp only [LineSystem.step] at stepped
      split at stepped
      · split at stepped
        · next passed =>
            cases stepped
            exact inv.testFlag passed quiet
        · cases stepped
          exact inv
      · contradiction
  | copyOut =>
      simp only [LineSystem.step] at stepped
      split at stepped
      · next phaseEq =>
          split at stepped
          · contradiction
          · cases stepped
            exact inv.copyOut phaseEq
      · contradiction
  | clearFlag =>
      simp only [LineSystem.step] at stepped
      split at stepped
      · next phaseEq =>
          cases stepped
          exact inv.clearFlag phaseEq
      · contradiction

theorem boot_inv (home : Nat → Fin 3) (pid : Nat) (paging : PageTables) (memory : Memory)
    (printBuffer : Nat → UInt8) : Inv home (boot home pid paging memory printBuffer) := by
  constructor
  · exact (Console.boot_driven paging memory printBuffer).setActiveTerminal (home pid).isLt
  · rfl
  · constructor
    · simp [boot]
    · simp [boot]
    · rintro terminalId ⟨positive, -⟩
      simp [boot] at positive
  · simp [boot]
  · intro first second _ firstPast
    simp [boot, ReadPhase.pastTest] at firstPast
  · intro reader count phase
    simp [boot] at phase
  · intro reader count bytes phase
    simp [boot] at phase
  · intro terminalId raised
    simp [ready, boot, Keyboard.keyboardInit] at raised

/-- A process on a freshly booted terminal. -/
def fresh : LineSystem :=
  boot (fun _ => 0) 0 zeroTables (fun _ => 0) (fun _ => 0)

end PonyOS.Terminal.LineSystem
