import PonyOS.Terminal.Switching

/-!
# What user mode can reach

After `paging_init` the tables are changed by `setup_task_page`,
`set_active_terminal` and `set_disiplay_terminal` only.  The closed form of the
tables holds along every sequence of these calls, and with it the translation
of user accesses is known: the loop of `setupt_video_user_level` leaves a
present, user-level entry for every page of the window but the first, so the
window opens the whole low memory and not one video page.
-/

namespace PonyOS.Paging

open PonyOS.Lib.Word
open PonyOS.Terminal

/-- The calls that change the page tables after `paging_init`. -/
inductive PagingCall
  | setupTaskPage (ind : Nat)
  | setActiveTerminal (terminalId : Fin 3)
  | setDisiplayTerminal (terminalId : Fin 3)

/-- One call. -/
def PagingCall.apply (console : Console) : PagingCall → Console
  | .setupTaskPage ind => console.setupTaskPage ind
  | .setActiveTerminal terminalId => console.setActiveTerminal terminalId
  | .setDisiplayTerminal terminalId => console.setDisiplayTerminal terminalId

/-- A physical address of the frame of process `pid`. -/
def InTaskFrame (pid physical : Nat) : Prop :=
  0x800000 + 0x400000 * pid ≤ physical ∧ physical < 0x800000 + 0x400000 * (pid + 1)

/-- A physical address of the video page of the active terminal. -/
def InVideoPage (console : Console) (physical : Nat) : Prop :=
  physical / 4096 = console.logicalPage console.activeTerminal

/-- User mode reaches the frame of process `pid` and the video page of its
terminal, and nothing else. -/
def Confined (console : Console) (pid : Nat) : Prop :=
  ∀ address physical, address < 4294967296 →
    console.paging.translate true address = some physical →
      InTaskFrame pid physical ∨ InVideoPage console physical

theorem PagingCall.apply_coherent {console : Console} (coherent : console.Coherent)
    (call : PagingCall) : (call.apply console).Coherent := by
  cases call with
  | setupTaskPage ind => exact coherent.setupTaskPage ind
  | setActiveTerminal terminalId => exact coherent.setActiveTerminal terminalId.isLt
  | setDisiplayTerminal terminalId => exact coherent.setDisiplayTerminal terminalId.isLt

/-- Every state reached after `paging_init` is coherent. -/
theorem run_coherent (paging : PageTables) (memory : Memory) (calls : List PagingCall) :
    (calls.foldl PagingCall.apply (Console.boot paging memory)).Coherent := by
  have kept : ∀ console : Console, console.Coherent →
      (calls.foldl PagingCall.apply console).Coherent := by
    induction calls with
    | nil =>
        intro console coherent
        exact coherent
    | cons call rest ih =>
        intro console coherent
        exact ih (call.apply console) (PagingCall.apply_coherent coherent call)
  exact kept _ (Console.boot_coherent paging memory)

/-- The second page of the window reaches the second page of physical memory,
whatever process and terminal are current. -/
theorem Coherent.window_reaches_low {console : Console} (coherent : console.Coherent) :
    console.paging.translate true 0xA001000 = some 0x1000 := by
  obtain ⟨task, shape⟩ := coherent.shape
  have window := shape.translate_window true 1 (by decide) (by decide) (by decide : 0 < 4096)
  rw [shapeUserTable, if_neg (by decide)] at window
  exact window

theorem Coherent.not_confined {console : Console} (coherent : console.Coherent) (pid : Nat) :
    ¬ Confined console pid := by
  intro confined
  rcases confined 0xA001000 0x1000 (by decide) (window_reaches_low coherent) with
    inFrame | inVideo
  · unfold InTaskFrame at inFrame
    omega
  · unfold InVideoPage Console.logicalPage at inVideo
    split at inVideo <;> omega

/-- User memory is confined in no state reached after `paging_init`. -/
theorem userMemory_never_confined (paging : PageTables) (memory : Memory)
    (calls : List PagingCall) (pid : Nat) :
    ¬ Confined (calls.foldl PagingCall.apply (Console.boot paging memory)) pid :=
  Coherent.not_confined (run_coherent paging memory calls) pid

/-- The root shell, mapped on terminal `0`, can reach physical address
`0x1000`. -/
theorem rootShell_not_confined :
    ¬ ∀ (calls : List PagingCall) (pid : Nat),
      Confined ((calls ++ [PagingCall.setupTaskPage pid]).foldl PagingCall.apply
        (Console.boot zeroTables fun _ => 0)) pid := by
  intro confined
  have first := confined [] 1
  exact Coherent.not_confined
    (run_coherent zeroTables (fun _ => 0) [PagingCall.setupTaskPage 1]) 1 first

end PonyOS.Paging
