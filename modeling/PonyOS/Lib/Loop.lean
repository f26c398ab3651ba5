import Mathlib.Logic.Function.Iterate

/-!
# Counted and conditional loops

The two loop shapes of C code as structural recursions: a counted loop over
`0, …, n - 1`, and a conditional loop that carries an explicit bound on the
number of iterations.  Each has one proof rule, so client proofs state a loop
invariant and never unfold a loop.
-/

namespace PonyOS.Lib.Loop

universe u v

variable {σ : Type u}

/-- `for (i = 0; i < n; i++) state = body i state`. -/
def forUpTo (n : Nat) (body : Nat → σ → σ) (state : σ) : σ :=
  match n with
  | 0 => state
  | n + 1 => body n (forUpTo n body state)

@[simp]
theorem forUpTo_zero (body : Nat → σ → σ) (state : σ) :
    forUpTo 0 body state = state :=
  rfl

theorem forUpTo_succ (n : Nat) (body : Nat → σ → σ) (state : σ) :
    forUpTo (n + 1) body state = body n (forUpTo n body state) :=
  rfl

/-- Invariant rule for counted loops. -/
theorem forUpTo_rule {body : Nat → σ → σ} (P : Nat → σ → Prop) (n : Nat)
    {state : σ} (initial : P 0 state)
    (preserved : ∀ i state, i < n → P i state → P (i + 1) (body i state)) :
    P n (forUpTo n body state) := by
  induction n with
  | zero => exact initial
  | succ n ih =>
      rw [forUpTo_succ]
      apply preserved n _ (Nat.lt_succ_self n)
      exact ih fun i state bound => preserved i state (Nat.lt_succ_of_lt bound)

/-- A loop commutes with a map that commutes with its body. -/
theorem forUpTo_hom {τ : Type v} {body : Nat → σ → σ} {inner : Nat → τ → τ}
    (view : τ → σ) (n : Nat)
    (commutes : ∀ i state, i < n → body i (view state) = view (inner i state))
    (state : τ) :
    forUpTo n body (view state) = view (forUpTo n inner state) := by
  induction n with
  | zero => rfl
  | succ n ih =>
      have below := ih fun i state bound => commutes i state (Nat.lt_succ_of_lt bound)
      rw [forUpTo_succ, below, commutes n _ (Nat.lt_succ_self n), forUpTo_succ]

/-- Simulation rule for counted loops: bodies that keep a relation between two
states keep it over the whole loop. -/
theorem forUpTo_related {τ : Type v} {body : Nat → σ → σ} {inner : Nat → τ → τ}
    (R : σ → τ → Prop) (n : Nat)
    (kept : ∀ i state other, i < n → R state other → R (body i state) (inner i other))
    {state : σ} {other : τ} (initial : R state other) :
    R (forUpTo n body state) (forUpTo n inner other) := by
  induction n with
  | zero => exact initial
  | succ n ih =>
      have before := ih fun i state other inside => kept i state other (Nat.lt_succ_of_lt inside)
      exact kept n _ _ (Nat.lt_succ_self n) before

/-- A loop leaves alone what its body leaves alone. -/
theorem forUpTo_frame {τ : Type v} {body : Nat → σ → σ} (view : σ → τ)
    (same : ∀ i state, view (body i state) = view state) (n : Nat) (state : σ) :
    view (forUpTo n body state) = view state := by
  induction n with
  | zero => rfl
  | succ n ih => rw [forUpTo_succ, same, ih]

/-- A loop that overwrites one entry for each index from `offset` on. -/
theorem forUpTo_update {τ : Type v} (entry table : Nat → τ) (offset n : Nat) :
    forUpTo n (fun k table => Function.update table (k + offset) (entry (k + offset))) table =
      fun i => if offset ≤ i ∧ i < n + offset then entry i else table i := by
  induction n with
  | zero =>
      funext i
      rw [if_neg (by omega), forUpTo_zero]
  | succ n ih =>
      funext i
      rw [forUpTo_succ, ih]
      by_cases last : i = n + offset
      · subst last
        rw [Function.update_self, if_pos (by omega)]
      · rw [Function.update_of_ne last]
        by_cases below : offset ≤ i ∧ i < n + offset
        · rw [if_pos below, if_pos (by omega)]
        · rw [if_neg below, if_neg (by omega)]

/-- `while (condition state) state = body state`, cut off after `bound`
iterations. -/
def whileDo (bound : Nat) (condition : σ → Bool) (body : σ → σ) (state : σ) : σ :=
  match bound with
  | 0 => state
  | bound + 1 =>
      if condition state then whileDo bound condition body (body state) else state

/-- A loop whose condition fails at entry is skipped, whatever the bound. -/
theorem whileDo_of_not {bound : Nat} {condition : σ → Bool} {body : σ → σ}
    {state : σ} (skipped : condition state = false) :
    whileDo bound condition body state = state := by
  cases bound <;> simp [whileDo, skipped]

/-- A conditional loop leaves alone what its body leaves alone. -/
theorem whileDo_frame {τ : Type v} {condition : σ → Bool} {body : σ → σ} (view : σ → τ)
    (same : ∀ state, view (body state) = view state) (bound : Nat) (state : σ) :
    view (whileDo bound condition body state) = view state := by
  induction bound generalizing state with
  | zero => rfl
  | succ bound ih =>
      rw [whileDo]
      split
      · rw [ih, same]
      · rfl

/-- A conditional loop commutes with a map under which its test and its body
are those of the other loop. -/
theorem whileDo_hom {τ : Type v} {condition : σ → Bool} {body : σ → σ} {test : τ → Bool}
    {inner : τ → τ} (view : τ → σ) (tests : ∀ state, condition (view state) = test state)
    (commutes : ∀ state, body (view state) = view (inner state)) (bound : Nat) (state : τ) :
    whileDo bound condition body (view state) = view (whileDo bound test inner state) := by
  induction bound generalizing state with
  | zero => rfl
  | succ bound ih =>
      rw [whileDo, whileDo, tests, commutes, ih]
      split <;> rfl

/-- Invariant rule for conditional loops. -/
theorem whileDo_rule {condition : σ → Bool} {body : σ → σ} (P : σ → Prop)
    (preserved : ∀ state, P state → P (body state)) (bound : Nat) {state : σ}
    (initial : P state) : P (whileDo bound condition body state) := by
  induction bound generalizing state with
  | zero => exact initial
  | succ bound ih =>
      rw [whileDo]
      split
      · exact ih (preserved state initial)
      · exact initial

/-- The loop `while (condition state) state = body state` leaves after exactly
`n` iterations. -/
structure StopsAfter (condition : σ → Bool) (body : σ → σ) (state : σ) (n : Nat) : Prop where
  entered : ∀ m, m < n → condition (body^[m] state) = true
  left : condition (body^[n] state) = false

/-- One iteration more in front. -/
theorem StopsAfter.head {condition : σ → Bool} {body : σ → σ} {state : σ} {n : Nat}
    (stops : StopsAfter condition body (body state) n) (first : condition state = true) :
    StopsAfter condition body state (n + 1) where
  entered m inside := by
    cases m with
    | zero => exact first
    | succ m => exact stops.entered m (by omega)
  left := stops.left

/-- A bound that is not below the number of iterations cuts nothing off. -/
theorem StopsAfter.whileDo_eq {condition : σ → Bool} {body : σ → σ} {state : σ} {n bound : Nat}
    (stops : StopsAfter condition body state n) (enough : n ≤ bound) :
    whileDo bound condition body state = body^[n] state := by
  induction n generalizing bound state with
  | zero => exact whileDo_of_not stops.left
  | succ n ih =>
      cases bound with
      | zero => exact absurd enough (by omega)
      | succ bound =>
          have rest : StopsAfter condition body (body state) n :=
            ⟨fun m inside => stops.entered (m + 1) (by omega), stops.left⟩
          have first : condition state = true := stops.entered 0 (by omega)
          rw [whileDo, if_pos first, ih rest (by omega)]
          rfl

end PonyOS.Lib.Loop
