import PonyOS.FileSystem.Lookup

/-!
# Names and lookup

A name is the bytes of the name field up to the first zero; a name of `32`
bytes fills the field and has no terminator, so `strlen` runs on into the
fields behind it.  Both lengths are clamped and the comparison stops at the
shorter of clamp and terminator.  Together these tests accept an entry exactly
if its name is the text of at most `32` bytes that was asked for.
-/

namespace PonyOS.FileSystem

open PonyOS.Lib.Word

/-- The name in a directory entry: its bytes up to the first zero, or all
`32`. -/
def Dentry.name (dentry : Dentry) : List UInt8 :=
  dentry.fileName.takeWhile (· ≠ 0)

theorem signedByte_sub_eq_zero {first second : UInt8} :
    signedByte first - signedByte second = 0 ↔ first = second := by
  constructor
  · intro same
    have firstLt := first.toNat_lt
    have secondLt := second.toNat_lt
    unfold signedByte at same
    apply UInt8.toNat_inj.mp
    split at same <;> split at same <;> omega
  · rintro rfl
    exact Int.sub_self _

/-- Equal clamped lengths and an equal comparison are equality of the clamped
texts. -/
theorem clampedCompare_iff (text : List UInt8) (noNul : (0 : UInt8) ∉ text)
    (chars : Nat → UInt8) {clamp bound : Nat} (room : clamp ≤ bound) :
    (min text.length clamp = min (strlen chars bound) clamp ∧
        strncmp (fun i => text.getD i 0) chars (min text.length clamp) = 0) ↔
      ((List.range clamp).map chars).takeWhile (· ≠ 0) = text.take clamp := by
  induction clamp generalizing text chars bound with
  | zero => simp [strncmp]
  | succ clamp ih =>
      obtain ⟨bound, rfl⟩ := Nat.exists_eq_succ_of_ne_zero (Nat.ne_of_gt (Nat.zero_lt_of_lt room))
      have range : (List.range (clamp + 1)).map chars =
          chars 0 :: (List.range clamp).map fun i => chars (i + 1) := by
        rw [List.range_succ_eq_map, List.map_cons, List.map_map]
        rfl
      rw [range, strlen]
      by_cases ends : chars 0 = 0
      · rw [List.takeWhile_cons_of_neg (by simp [ends]), if_pos ends]
        cases text with
        | nil => simp [strncmp]
        | cons char rest => simp
      · rw [List.takeWhile_cons_of_pos (by simp [ends]), if_neg ends]
        cases text with
        | nil => simp
        | cons char rest =>
            have notNul : char ≠ 0 := fun isNul => noNul (by simp [isNul])
            have later := ih rest (fun isNul => noNul (List.mem_cons_of_mem _ isNul))
              (fun i => chars (i + 1)) (Nat.le_of_succ_le_succ room)
            rw [List.take_succ_cons, List.cons.injEq, ← later, List.length_cons,
              Nat.add_min_add_right, Nat.add_min_add_right, strncmp]
            by_cases same : char = chars 0
            · simp [← same, notNul]
            · have differ : signedByte char - signedByte (chars 0) ≠ 0 :=
                fun equal => same (signedByte_sub_eq_zero.mp equal)
              have other : chars 0 ≠ char := fun equal => same equal.symm
              simp [same, differ, other]

namespace Volume

theorem nameMatches_iff (fs : Volume) (name : CString) (index : Nat) :
    fs.nameMatches name index = true ↔ (fs.dentryAt index).name = name.chars.take 32 := by
  have room : 32 ≤ addressSpace := by decide
  have compared := clampedCompare_iff name.chars name.noNul (fs.entryChars index) room
  simp only [nameMatches, Bool.and_eq_true, decide_eq_true_eq]
  exact compared

/-- The loop of `read_dentry_by_name` from entry `i` on, with the dentry of the
caller: the result and what the dentry holds afterwards. -/
def readDentryLoop (fs : Volume) (name : CString) : Nat → Nat → Dentry → Int × Dentry
  | 0, _, dentry => (-1, dentry)
  | fuel + 1, i, dentry =>
      if fs.nameMatches name i then
        (0,
          { dentry with
            inode := (fs.dentryAt i).inode
            fileType := (fs.dentryAt i).fileType
            reserved := (fs.dentryAt i).reserved
            fileName := (fs.dentryAt i).fileName })
      else readDentryLoop fs name fuel (i + 1) dentry

/-- `read_dentry_by_name` with the dentry that its caller passes. -/
def readDentryByNameInto (fs : Volume) (name : CString) (dentry : Dentry) : Int × Dentry :=
  fs.readDentryLoop name fs.numDirEntry.toNat 0 dentry

/-- The loop finds the first entry that passes the test. -/
theorem readDentryLoop_eq (fs : Volume) (name : CString) (fuel i : Nat) (dentry : Dentry) :
    fs.readDentryLoop name fuel i dentry =
      match (List.range' i fuel).find? (fs.nameMatches name) with
      | none => (-1, dentry)
      | some index => (0, fs.dentryAt index) := by
  induction fuel generalizing i with
  | zero => rfl
  | succ fuel ih =>
      rw [readDentryLoop, List.range'_succ, List.find?_cons]
      cases passes : fs.nameMatches name i with
      | false => simpa using ih (i + 1)
      | true => rfl

/-- The lookup in the form that the rest of the kernel uses. -/
theorem readDentryByNameInto_eq (fs : Volume) (name : CString) (dentry : Dentry) :
    fs.readDentryByNameInto name dentry =
      match fs.readDentryByName name with
      | none => (-1, dentry)
      | some found => (0, found) := by
  rw [readDentryByNameInto, readDentryLoop_eq, readDentryByName, List.range_eq_range']
  cases (List.range' 0 fs.numDirEntry.toNat).find? (fs.nameMatches name) with
  | none => rfl
  | some index => rfl

/-- Entry `index` is the first whose name is the text asked for, clamped. -/
structure FirstNamed (fs : Volume) (name : CString) (index : Nat) : Prop where
  inTable : (index : Int) < fs.numDirEntry
  named : (fs.dentryAt index).name = name.chars.take 32
  first : ∀ earlier, earlier < index → (fs.dentryAt earlier).name ≠ name.chars.take 32

/-- A lookup returns the first entry of that name. -/
theorem readDentryByName_eq_some_iff (fs : Volume) (name : CString) (dentry : Dentry) :
    fs.readDentryByName name = some dentry ↔
      ∃ index, FirstNamed fs name index ∧ dentry = fs.dentryAt index := by
  rw [readDentryByName, Option.map_eq_some_iff]
  constructor
  · rintro ⟨index, search, rfl⟩
    obtain ⟨passes, inRange, before⟩ := List.find?_range_eq_some.mp search
    refine ⟨index, ⟨?_, (fs.nameMatches_iff name index).mp passes, ?_⟩, rfl⟩
    · have bound := List.mem_range.mp inRange
      omega
    · intro earlier isBefore named
      have fails := before earlier isBefore
      rw [(fs.nameMatches_iff name earlier).mpr named] at fails
      contradiction
  · rintro ⟨index, ⟨inTable, named, first⟩, rfl⟩
    refine ⟨index, List.find?_range_eq_some.mpr ⟨?_, ?_, ?_⟩, rfl⟩
    · exact (fs.nameMatches_iff name index).mpr named
    · exact List.mem_range.mpr (by omega)
    · intro earlier isBefore
      have fails := mt (fs.nameMatches_iff name earlier).mp (first earlier isBefore)
      simpa using fails

/-- It fails if there is none. -/
theorem readDentryByName_eq_none_iff (fs : Volume) (name : CString) :
    fs.readDentryByName name = none ↔
      ∀ index : Nat, (index : Int) < fs.numDirEntry →
        (fs.dentryAt index).name ≠ name.chars.take 32 := by
  rw [readDentryByName, Option.map_eq_none_iff, List.find?_eq_none]
  constructor
  · intro fails index inTable named
    exact fails index (List.mem_range.mpr (by omega)) ((fs.nameMatches_iff name index).mpr named)
  · intro differs index inRange passes
    have bound := List.mem_range.mp inRange
    exact differs index (by omega) ((fs.nameMatches_iff name index).mp passes)

/-- Name lookup is exact: it succeeds if and only if some entry has the text of
at most `32` bytes as its name, then fills the dentry with the first such entry,
and otherwise leaves it alone. -/
theorem readDentryByName_exact (fs : Volume) (name : CString) (dentry : Dentry) :
    ((fs.readDentryByNameInto name dentry).1 = 0 ↔
        ∃ index : Nat, (index : Int) < fs.numDirEntry ∧
          (fs.dentryAt index).name = name.chars.take 32) ∧
      ((fs.readDentryByNameInto name dentry).1 = 0 →
        ∃ index, FirstNamed fs name index ∧
          fs.readDentryByNameInto name dentry = (0, fs.dentryAt index)) ∧
      ((fs.readDentryByNameInto name dentry).1 ≠ 0 →
        fs.readDentryByNameInto name dentry = (-1, dentry)) ∧
      (name.chars.length ≤ 32 →
        ((fs.readDentryByNameInto name dentry).1 = 0 ↔
          ∃ index : Nat, (index : Int) < fs.numDirEntry ∧
            (fs.dentryAt index).name = name.chars)) := by
  have filled : fs.readDentryByNameInto name dentry = (-1, dentry) ∧
        (∀ index : Nat, (index : Int) < fs.numDirEntry →
          (fs.dentryAt index).name ≠ name.chars.take 32) ∨
      ∃ index, FirstNamed fs name index ∧
        fs.readDentryByNameInto name dentry = (0, fs.dentryAt index) := by
    rw [readDentryByNameInto_eq]
    cases lookup : fs.readDentryByName name with
    | none => exact .inl ⟨rfl, (fs.readDentryByName_eq_none_iff name).mp lookup⟩
    | some entry =>
        obtain ⟨index, isFirst, rfl⟩ := (fs.readDentryByName_eq_some_iff name entry).mp lookup
        exact .inr ⟨index, isFirst, rfl⟩
  have found : (fs.readDentryByNameInto name dentry).1 = 0 ↔
      ∃ index : Nat, (index : Int) < fs.numDirEntry ∧
        (fs.dentryAt index).name = name.chars.take 32 := by
    rcases filled with ⟨failed, differs⟩ | ⟨index, isFirst, succeeded⟩
    · rw [failed]
      constructor
      · intro impossible
        contradiction
      · rintro ⟨index, inTable, named⟩
        exact absurd named (differs index inTable)
    · rw [succeeded]
      exact ⟨fun _ => ⟨index, isFirst.inTable, isFirst.named⟩, fun _ => rfl⟩
  refine ⟨found, ?_, ?_, ?_⟩
  · intro value
    rcases filled with ⟨failed, -⟩ | first
    · rw [failed] at value
      contradiction
    · exact first
  · intro value
    rcases filled with ⟨failed, -⟩ | ⟨index, -, succeeded⟩
    · exact failed
    · rw [succeeded] at value
      contradiction
  · intro short
    rw [found, List.take_of_length_le short]

end Volume

end PonyOS.FileSystem
