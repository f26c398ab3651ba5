import Mathlib.Logic.Function.Basic

/-!
# Caches

A cache keeps some of what a source answers.  It may take over an answer or drop
one at any time; where it is coherent, a lookup through it is a lookup in the
source.  Coherence may be asked for on a part of the keys only, so that the source
can change elsewhere while the cache is in use.
-/

namespace PonyOS.Lib.Cache

universe u v

/-- What is kept for each key. -/
abbrev Kept (κ : Type u) (α : Type v) :=
  κ → Option α

variable {κ : Type u} {α : Type v} {kept : Kept κ α} {source changed : κ → Option α}
  {P Q : κ → Prop}

/-- Nothing is kept. -/
def flushed : Kept κ α :=
  fun _ => none

/-- A lookup through the cache. -/
def through (kept : Kept κ α) (source : κ → Option α) (key : κ) : Option α :=
  (kept key).or (source key)

/-- What is kept for the keys of `P` is what the source answers. -/
def Coherent (P : κ → Prop) (kept : Kept κ α) (source : κ → Option α) : Prop :=
  ∀ key value, P key → kept key = some value → source key = some value

theorem Coherent.through (coherent : Coherent P kept source) {key : κ} (asked : P key) :
    Cache.through kept source key = source key := by
  unfold Cache.through
  cases found : kept key with
  | none => rfl
  | some value =>
      rw [coherent key value asked found]
      rfl

/-- A flush makes the cache coherent with every source. -/
theorem coherent_flushed : Coherent P (flushed : Kept κ α) source := by
  intro key value asked found
  cases found

/-- Coherence on fewer keys. -/
theorem Coherent.mono (coherent : Coherent P kept source) (fewer : ∀ key, Q key → P key) :
    Coherent Q kept source :=
  fun key value asked => coherent key value (fewer key asked)

/-- The source may change where coherence is not asked for. -/
theorem Coherent.congr (coherent : Coherent P kept source)
    (same : ∀ key, P key → changed key = source key) : Coherent P kept changed := by
  intro key value asked found
  rw [same key asked]
  exact coherent key value asked found

section Update

variable [DecidableEq κ]

/-- The cache takes over an answer of the source. -/
theorem Coherent.fill (coherent : Coherent P kept source) {key : κ} {value : α}
    (answered : P key → source key = some value) :
    Coherent P (Function.update kept key (some value)) source := by
  intro other result asked found
  by_cases same : other = key
  · subst same
    rw [Function.update_self] at found
    rw [← found]
    exact answered asked
  · rw [Function.update_of_ne same] at found
    exact coherent other result asked found

/-- The cache drops an answer. -/
theorem Coherent.evict (coherent : Coherent P kept source) (key : κ) :
    Coherent P (Function.update kept key none) source := by
  intro other result asked found
  by_cases same : other = key
  · subst same
    rw [Function.update_self] at found
    cases found
  · rw [Function.update_of_ne same] at found
    exact coherent other result asked found

end Update

end PonyOS.Lib.Cache
