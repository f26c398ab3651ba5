import PonyOS.Process.Schedule

/-!
# Failing executions

The exits of `execute_with_terminal_num` before the claim of a slot leave the
process table alone.  There is one exit after it: the load fails when the
directory entry names an inode outside the table.  The header read has failed
there too, and its result is ignored, so the magic-number test has looked at
whatever was on the stack.
-/

namespace PonyOS.Process

open PonyOS.FileSystem
open PonyOS.Lib.Word
open PonyOS.Paging
open PonyOS.Terminal

/-- The entry found under a name has an inode number outside the table. -/
def DanglingEntry (fs : Volume) (name : CString) : Prop :=
  ∃ dentry, fs.readDentryByName name = some dentry ∧
    uint32 fs.numInodes ≤ uint32 dentry.inode

/-- A read through a dangling entry fails and stores nothing. -/
theorem DanglingEntry.read {fs : Volume} {name : CString} (dangling : DanglingEntry fs name)
    (buf count : Nat) : fs.filesysReadByName name buf count = { value := -1, copies := [] } := by
  obtain ⟨dentry, found, outside⟩ := dangling
  rw [Volume.filesysReadByName, found]
  exact if_pos outside

/-- The stack buffer keeps its old contents. -/
theorem DanglingEntry.readHeader {fs : Volume} {name : CString}
    (dangling : DanglingEntry fs name) (tempBuf : Nat → UInt8) :
    readHeader fs name tempBuf = tempBuf := by
  rw [Process.readHeader, dangling.read]
  rfl

theorem DanglingEntry.loadExecutable {fs : Volume} {name : CString}
    (dangling : DanglingEntry fs name) (dest : Nat) :
    loadExecutable fs name dest = some (-1) := by
  simp [Process.loadExecutable, dangling.read, Volume.readStores]

/-- A load that fails with `-1` went through a dangling entry. -/
theorem dangling_of_loadExecutable {fs : Volume} {name : CString} {dest : Nat}
    (present : fs.readDentryByName name ≠ none)
    (failed : loadExecutable fs name dest = some (-1)) : DanglingEntry fs name := by
  obtain ⟨dentry, found⟩ := Option.ne_none_iff_exists'.mp present
  refine ⟨dentry, found, ?_⟩
  simp only [loadExecutable] at failed
  split at failed
  · have value : (fs.filesysReadByName name dest maxInt).value = -1 := by
      by_contra other
      simp [other] at failed
    rw [Volume.filesysReadByName, found] at value
    exact (fs.readData_value_eq _ _ _ _).mp value
  · contradiction

/-- Every way `execute_with_terminal_num` can end. -/
theorem executeWithTerminalNum_cases {kernel target : Kernel} {registers : Registers}
    {tempBuf : Nat → UInt8} {command : Option CString} {terminalNum : Nat} {isTerminal : Int}
    {reply : ExecuteReply}
    (ended : executeWithTerminalNum kernel registers tempBuf command terminalNum isTerminal =
      some (reply, target)) :
    (reply = .failed ∧ ∃ fname, target = { kernel with fname := fname }) ∨
    ∃ text pid, command = some text ∧ kernel.getEmptyPid = some pid ∧
      ((reply = .failed ∧ DanglingEntry kernel.fs (programName text) ∧
          isExecutable tempBuf = true ∧
          target = (kernel.setName (programName text)).claimProcess text pid terminalNum) ∨
        ∃ entry, reply = .started pid entry ∧
          target = ((kernel.setName (programName text)).claimProcess text pid
            terminalNum).startProcess pid terminalNum isTerminal entry registers) := by
  unfold executeWithTerminalNum at ended
  cases command with
  | none =>
      cases ended
      exact .inl ⟨rfl, kernel.fname, rfl⟩
  | some text =>
      simp only at ended
      split at ended
      · cases ended
        exact .inl ⟨rfl, _, rfl⟩
      · next present =>
          split at ended
          · cases ended
            exact .inl ⟨rfl, _, rfl⟩
          · next executable =>
              split at ended
              · cases ended
                exact .inl ⟨rfl, _, rfl⟩
              · next pid free =>
                  split at ended
                  · contradiction
                  · next loaded loadedEq =>
                      refine .inr ⟨text, pid, rfl, free, ?_⟩
                      split at ended
                      · next late =>
                          cases ended
                          rw [late] at loadedEq
                          have dangling := dangling_of_loadExecutable present loadedEq
                          rw [dangling.readHeader] at executable
                          exact .inl ⟨rfl, dangling, by simpa using executable, rfl⟩
                      · cases ended
                        exact .inr ⟨_, rfl, rfl⟩

/-- The command finds an entry whose inode is outside the table, the stack
happens to hold the magic number, and a slot is free. -/
def LateFailure (kernel : Kernel) (tempBuf : Nat → UInt8) (command : Option CString) : Prop :=
  ∃ text, command = some text ∧ DanglingEntry kernel.fs (programName text) ∧
    isExecutable tempBuf = true ∧ kernel.getEmptyPid ≠ none

/-- In that case the slot stays claimed. -/
theorem LateFailure.fails {kernel : Kernel} {tempBuf : Nat → UInt8} {command : Option CString}
    (late : LateFailure kernel tempBuf command) (registers : Registers) (terminalNum : Nat)
    (isTerminal : Int) :
    ∃ pid target, kernel.processStatus pid = false ∧ target.processStatus pid = true ∧
      executeWithTerminalNum kernel registers tempBuf command terminalNum isTerminal =
        some (.failed, target) := by
  obtain ⟨text, rfl, dangling, executable, free⟩ := late
  obtain ⟨pid, pidEq⟩ := Option.ne_none_iff_exists'.mp free
  have present : kernel.fs.readDentryByName (programName text) ≠ none := by
    obtain ⟨dentry, found, -⟩ := dangling
    simp [found]
  refine ⟨pid, (kernel.setName (programName text)).claimProcess text pid terminalNum,
    (Kernel.getEmptyPid_eq_some pidEq).2.2, Function.update_self .., ?_⟩
  simp [executeWithTerminalNum, present, dangling.readHeader, executable, pidEq,
    dangling.loadExecutable]

/-- An image with one entry, `"x"`, and no inodes. -/
def danglingMemory : Memory :=
  fun address => if address = 0x420000 then 1 else if address = 0x420040 then 120 else 0

/-- The kernel that mounted it. -/
def danglingKernel : Kernel :=
  Kernel.boot (filesysInit danglingMemory 0x420000) zeroTables (fun _ => 0) (fun _ => 0)
    (fun _ => 0) (fun _ => 0) 0

/-- The command `"x"`. -/
def danglingCommand : CString :=
  { chars := [120], noNul := by decide }

end PonyOS.Process
