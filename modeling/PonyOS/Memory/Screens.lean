import PonyOS.Memory.Routines
import PonyOS.Terminal.Frame
import PonyOS.Terminal.Switching

/-!
# Page copies of a display switch

A display switch saves the screen and shows another one by two copies of a page.
The console makes them byte by byte through the page tables.  The code of `memcpy`,
run on the memory that the kernel sees, leaves the same bytes in all four pages.
-/

namespace PonyOS.Memory

open PonyOS.Lib.Loop
open PonyOS.Terminal
open PonyOS.Terminal.Console

/-- The memory of a processor is, on the page at `base`, what the kernel sees. -/
def SeesPage (cpu : Cpu) (console : Console) (base : Nat) : Prop :=
  ∀ offset < 4096, cpu.memory (base + offset) = console.load (base + offset)

theorem memcpy_paging (console : Console) (dest src n : Nat) :
    (console.memcpy dest src n).paging = console.paging :=
  congrArg Control.paging (memcpy_control console dest src n)

theorem showTerminal_memory (console : Console) (terminalId : Nat) :
    (console.showTerminal terminalId).memory = console.memory :=
  rfl

/-- Pages of different frames have no address in common. -/
theorem mapsTo_apart {console : Console} {base frame other place : Nat}
    (maps : MapsTo console.paging base frame) (placed : MapsTo console.paging place other)
    (distinct : other ≠ frame) : Apart base place 4096 := by
  by_contra overlap
  have near : place < base + 4096 ∧ base < place + 4096 := by
    unfold Apart at overlap
    omega
  -- The higher of the two bases lies in both pages and would have two translations.
  rcases Nat.le_total base place with above | above
  · have first := maps.translate (place - base) (by omega)
    have second := placed.translate 0 (by decide)
    rw [Nat.add_sub_of_le above, ← Nat.add_zero place, second] at first
    have same := Option.some.inj first
    omega
  · have first := placed.translate (base - place) (by omega)
    have second := maps.translate 0 (by decide)
    rw [Nat.add_sub_of_le above, ← Nat.add_zero base, second] at first
    have same := Option.some.inj first
    omega

/-- A copy between ranges that are apart delivers the bytes of the source. -/
theorem copyBytes_inside (memory : Lib.Word.Memory) {dest src n : Nat}
    (apart : Apart dest src n) {i : Nat} (inside : i < n) :
    copyBytes memory dest src n (dest + i) = memory (src + i) := by
  have parts : dest + n ≤ src ∨ src + n ≤ dest := apart
  refine forUpTo_rule
    (fun done (target : Lib.Word.Memory) => (∀ k < n, target (src + k) = memory (src + k)) ∧
      ∀ k < done, target (dest + k) = memory (src + k)) n ?_ ?_ |>.2 i inside
  · exact ⟨fun k _ => rfl, fun k early => absurd early (Nat.not_lt_zero k)⟩
  · rintro done target bound ⟨source, copied⟩
    constructor
    · intro k below
      rw [Function.update_of_ne (by omega), source k below]
    · intro k below
      by_cases last : k = done
      · rw [last, Function.update_self, source done bound]
      · rw [Function.update_of_ne (by omega), copied k (by omega)]

/-- The code of `memcpy` does what the copy of the console does: the page of the
destination is seen as it is then, and every page of another frame that was seen
still is. -/
theorem memcpy_page (console : Console) {dest src : UInt32} {frame other : Nat}
    (destMaps : MapsTo console.paging dest.toNat frame)
    (srcMaps : MapsTo console.paging src.toNat other) (distinct : other ≠ frame) {cpu : Cpu}
    (sees : SeesPage cpu console src.toNat) :
    ∃ target, (dest, target) ∈ memcpy cpu dest src 0x1000 ∧
      SeesPage target (console.memcpy dest.toNat src.toNat 0x1000) dest.toNat ∧
      ∀ {base kept : Nat}, MapsTo console.paging base kept → kept ≠ frame →
        SeesPage cpu console base →
        SeesPage target (console.memcpy dest.toNat src.toNat 0x1000) base := by
  have apart := mapsTo_apart destMaps srcMaps distinct
  rcases memcpy_ends cpu dest src 0x1000 destMaps.fits srcMaps.fits apart with
    ⟨target, ended, stored⟩
  have copied : target.memory = copyBytes cpu.memory dest.toNat src.toNat 4096 := stored
  refine ⟨target, ended, ?_, ?_⟩
  · intro offset inPage
    rw [copied, copyBytes_inside cpu.memory apart inPage, sees offset inPage,
      memcpy_eq console destMaps srcMaps distinct, load_withPage console _ destMaps inPage, load,
      srcMaps.translate offset inPage, Page.get, dif_pos inPage]
    rfl
  · intro base kept maps another seen offset inPage
    have outside : base + offset < dest.toNat ∨ dest.toNat + 4096 ≤ base + offset := by
      have parts : dest.toNat + 4096 ≤ base ∨ base + 4096 ≤ dest.toNat :=
        mapsTo_apart destMaps maps another
      omega
    have unchanged : target.memory (base + offset) = cpu.memory (base + offset) := by
      rw [copied]
      exact forUpTo_outside (fun i memory => memory (src.toNat + i)) cpu.memory dest.toNat 4096
        outside
    rw [unchanged, seen offset inPage, memcpy_eq console destMaps srcMaps distinct,
      load_withPage_of_ne console _ maps another inPage, load, maps.translate offset inPage,
      Page.get, dif_pos inPage]
    rfl

/-! ## The four pages of the screens -/

/-- The page of the screen and the pages of the terminals, with their frames. -/
def ScreenPage (base frame : Nat) : Prop :=
  (base = physicalVideoMem ∧ frame = 0xB8) ∨ ∃ t < 3, base = terminalMem t ∧ frame = 0xB9 + t

/-- A processor sees all screens. -/
def SeesScreens (cpu : Cpu) (console : Console) : Prop :=
  ∀ {base frame : Nat}, ScreenPage base frame → SeesPage cpu console base

theorem ScreenPage.base_eq {first second frame : Nat} (one : ScreenPage first frame)
    (two : ScreenPage second frame) : first = second := by
  rcases one with ⟨rfl, video⟩ | ⟨t, bound, rfl, terminal⟩
  · rcases two with ⟨rfl, _⟩ | ⟨u, _, rfl, terminal⟩
    · rfl
    · omega
  · rcases two with ⟨rfl, video⟩ | ⟨u, _, rfl, another⟩
    · omega
    · exact congrArg terminalMem (by omega)

/-- Where the console is coherent, the page tables have them so. -/
theorem ScreenPage.maps {base frame : Nat} (page : ScreenPage base frame) {console : Console}
    (coherent : console.Coherent) : MapsTo console.paging base frame := by
  rcases page with ⟨rfl, rfl⟩ | ⟨t, bound, rfl, rfl⟩
  · exact coherent.maps_physicalVideoMem
  · exact coherent.maps_terminalMem bound

theorem SeesScreens.memcpy {console : Console} {cpu : Cpu} (sees : SeesScreens cpu console)
    (maps : ∀ {base frame : Nat}, ScreenPage base frame → MapsTo console.paging base frame)
    {dest src : UInt32} {frame other : Nat} (destPage : ScreenPage dest.toNat frame)
    (srcPage : ScreenPage src.toNat other) (distinct : other ≠ frame) :
    ∃ target, (dest, target) ∈ memcpy cpu dest src 0x1000 ∧
      SeesScreens target (console.memcpy dest.toNat src.toNat 0x1000) := by
  rcases memcpy_page console (maps destPage) (maps srcPage) distinct (sees srcPage) with
    ⟨target, ended, written, others⟩
  refine ⟨target, ended, ?_⟩
  intro base kept page
  by_cases same : kept = frame
  · subst same
    rw [page.base_eq destPage]
    exact written
  · exact others (maps page) same (sees page)

/-- What is seen depends on memory and on the frames of the pages only. -/
theorem SeesScreens.of_memory_eq {first second : Console} {cpu : Cpu}
    (sees : SeesScreens cpu first) (same : second.memory = first.memory)
    (firstMaps : ∀ {base frame : Nat}, ScreenPage base frame → MapsTo first.paging base frame)
    (secondMaps : ∀ {base frame : Nat}, ScreenPage base frame → MapsTo second.paging base frame) :
    SeesScreens cpu second := by
  intro base frame page offset inPage
  rw [sees page offset inPage, load, load, (firstMaps page).translate offset inPage,
    (secondMaps page).translate offset inPage, same]

/-- The copies of a display switch: run one after the other, the code of `memcpy`
leaves all screens as the console has them after the switch. -/
theorem setDisiplayTerminal_copies {console : Console} (coherent : console.Coherent)
    {terminalId : Nat} (terminalLt : terminalId < 3) {cpu : Cpu} (sees : SeesScreens cpu console)
    {video leaving coming : UInt32} (videoIs : video.toNat = physicalVideoMem)
    (leavingIs : leaving.toNat = terminalMem console.displayTerminal)
    (comingIs : coming.toNat = terminalMem terminalId) :
    ∃ saved shown, (leaving, saved) ∈ memcpy cpu leaving video 0x1000 ∧
      (video, shown) ∈ memcpy saved video coming 0x1000 ∧
      SeesScreens shown (console.setDisiplayTerminal terminalId) := by
  have videoPage : ScreenPage video.toNat 0xB8 := .inl ⟨videoIs, rfl⟩
  have leavingPage : ScreenPage leaving.toNat (0xB9 + console.displayTerminal) :=
    .inr ⟨_, coherent.display_lt, leavingIs, rfl⟩
  have comingPage : ScreenPage coming.toNat (0xB9 + terminalId) :=
    .inr ⟨_, terminalLt, comingIs, rfl⟩
  rcases sees.memcpy (fun page => page.maps coherent) leavingPage videoPage (by omega) with
    ⟨saved, savedEnded, seesSaved⟩
  have savedMaps : ∀ {base frame : Nat}, ScreenPage base frame →
      MapsTo (console.memcpy leaving.toNat video.toNat 0x1000).paging base frame := by
    intro base frame page
    rw [memcpy_paging]
    exact page.maps coherent
  rcases seesSaved.memcpy savedMaps videoPage comingPage (by omega) with
    ⟨shown, shownEnded, seesShown⟩
  refine ⟨saved, shown, savedEnded, shownEnded, ?_⟩
  rw [videoIs, leavingIs, comingIs] at seesShown
  refine seesShown.of_memory_eq (showTerminal_memory _ terminalId) ?_ fun page =>
    page.maps (coherent.setDisiplayTerminal terminalLt)
  intro base frame page
  rw [memcpy_paging, memcpy_paging]
  exact page.maps coherent

end PonyOS.Memory
