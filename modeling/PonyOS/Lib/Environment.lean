import PonyOS.Lib.Transition

/-!
# A client beside its environment

A client is a program cut at its requests to a system: it says what it asks for
next and how it goes on with the reply.  Put beside the system, it takes a step
whenever its request is its own to make; every other event is the environment's.
An invariant of both together is a pair of obligations, one for each side.
-/

namespace PonyOS.Lib.Environment

open PonyOS.Lib.Transition

universe u v w x

/-- A program cut at its requests; one that asks for nothing has finished. -/
structure Client (τ : Type x) (ε : Type v) (ρ : Type w) where
  ask : τ → Option ε
  answer : τ → ρ → τ

/-- Whose move it is. -/
inductive Move (ε : Type v)
  | own
  | other (event : ε)

/-- The moves of the client. -/
def Move.isOwn {ε : Type v} : Move ε → Bool
  | .own => true
  | .other _ => false

variable {σ : Type u} {ε : Type v} {ρ : Type w} {τ : Type x}

/-- The client and the system together.  `mine` says which events are requests
that only the client makes. -/
def together (next : Step σ ε ρ) (client : Client τ ε ρ) (mine : σ → ε → Bool) :
    Step (σ × τ) (Move ε) ρ
  | (state, thread), .own =>
      match client.ask thread with
      | none => none
      | some event =>
          if mine state event then
            (next state event).map fun outcome =>
              (outcome.1, (outcome.2, client.answer thread outcome.1))
          else none
  | (state, thread), .other event =>
      if mine state event then none
      else (next state event).map fun outcome => (outcome.1, (outcome.2, thread))

/-- What a move can be. -/
inductive Moved (next : Step σ ε ρ) (client : Client τ ε ρ) (mine : σ → ε → Bool) (state : σ)
    (thread : τ) : Move ε → ρ → σ → τ → Prop
  | own (event : ε) (reply : ρ) (target : σ) : client.ask thread = some event →
      mine state event = true → next state event = some (reply, target) →
      Moved next client mine state thread .own reply target (client.answer thread reply)
  | other (event : ε) (reply : ρ) (target : σ) : mine state event = false →
      next state event = some (reply, target) →
      Moved next client mine state thread (.other event) reply target thread

variable {next : Step σ ε ρ} {client : Client τ ε ρ} {mine : σ → ε → Bool}

theorem together_moved {state target : σ} {thread after : τ} {move : Move ε} {reply : ρ}
    (stepped : together next client mine (state, thread) move = some (reply, (target, after))) :
    Moved next client mine state thread move reply target after := by
  cases move with
  | own =>
      simp only [together] at stepped
      split at stepped
      · contradiction
      · next event asked =>
          split at stepped
          · next isMine =>
              rcases Option.map_eq_some_iff.mp stepped with ⟨outcome, moved, outcomeEq⟩
              cases outcomeEq
              exact .own event outcome.1 outcome.2 asked isMine moved
          · contradiction
  | other event =>
      simp only [together] at stepped
      split at stepped
      · contradiction
      · next notMine =>
          rcases Option.map_eq_some_iff.mp stepped with ⟨outcome, moved, outcomeEq⟩
          cases outcomeEq
          exact .other event outcome.1 outcome.2 (Bool.eq_false_iff.mpr notMine) moved

/-- A client makes its request when it is its own to make. -/
theorem together_own {state target : σ} {thread : τ} {event : ε} {reply : ρ}
    (asked : client.ask thread = some event) (isMine : mine state event = true)
    (moved : next state event = some (reply, target)) :
    together next client mine (state, thread) .own =
      some (reply, (target, client.answer thread reply)) := by
  simp only [together, asked, isMine, if_true, moved, Option.map_some]

/-- The condition on the environment's moves. -/
def otherMoves (allowed : σ → ε → ρ → Prop) : σ × τ → Move ε → ρ → Prop
  | (state, _), .other event, reply => allowed state event reply
  | _, .own, _ => True

/-- Invariant rule: the client keeps it with each request, and the environment
with each event that it is allowed. -/
theorem run_invariant {allowed : σ → ε → ρ → Prop} (P : σ → τ → Prop)
    (own : ∀ {state thread event reply target}, P state thread →
      client.ask thread = some event → mine state event = true →
      next state event = some (reply, target) → P target (client.answer thread reply))
    (other : ∀ {state thread event reply target}, P state thread → mine state event = false →
      allowed state event reply → next state event = some (reply, target) → P target thread)
    {source target : σ × τ} {trace : List (Move ε × ρ)}
    (run : GuardedRun (together next client mine) (otherMoves allowed) source trace target)
    (initial : P source.1 source.2) : P target.1 target.2 := by
  apply run.invariant (P := fun both : σ × τ => P both.1 both.2) _ initial
  rintro ⟨state, thread⟩ move reply ⟨target, after⟩ holds guarded stepped
  cases together_moved stepped with
  | own event reply target asked isMine moved => exact own holds asked isMine moved
  | other event reply target notMine moved => exact other holds notMine guarded moved

/-- Bound rule: where each request lowers a measure of the client and the
environment does not raise it, the client makes no more requests than that. -/
theorem run_bound {allowed : σ → ε → ρ → Prop} (P : σ → τ → Prop) (left : σ → τ → Nat)
    (own : ∀ {state thread event reply target}, P state thread →
      client.ask thread = some event → mine state event = true →
      next state event = some (reply, target) →
      P target (client.answer thread reply) ∧
        left target (client.answer thread reply) + 1 ≤ left state thread)
    (other : ∀ {state thread event reply target}, P state thread → mine state event = false →
      allowed state event reply → next state event = some (reply, target) →
      P target thread ∧ left target thread ≤ left state thread)
    {source target : σ × τ} {trace : List (Move ε × ρ)}
    (run : GuardedRun (together next client mine) (otherMoves allowed) source trace target)
    (initial : P source.1 source.2) :
    left target.1 target.2 + trace.countP (fun step => step.1.isOwn) ≤
      left source.1 source.2 := by
  induction run with
  | nil both => exact Nat.le_refl _
  | @cons before middle final move reply rest guarded stepped run ih =>
      rcases before with ⟨state, thread⟩
      rcases middle with ⟨reached, after⟩
      cases together_moved stepped with
      | own event reply target asked isMine moved =>
          rcases own initial asked isMine moved with ⟨kept, less⟩
          have rest := ih kept
          rw [List.countP_cons_of_pos rfl]
          simp only at less rest ⊢
          omega
      | other event reply target notMine moved =>
          rcases other initial notMine guarded moved with ⟨kept, less⟩
          have rest := ih kept
          rw [List.countP_cons_of_neg (by exact Bool.false_ne_true)]
          simp only at less rest ⊢
          omega

end PonyOS.Lib.Environment
