import Mathlib.Data.Option.Basic
import Mathlib.Data.List.Basic

/-!
# Deterministic labelled transition systems

A service is modelled by a state type `σ`, an action type `α` and a partial step
`step : σ → α → Option σ`: `none` means the action is not enabled in that state.
Nondeterminism of the environment (a failing RPC, a transaction landing, the
order of a scheduler) is carried by the action, so the step stays a function and
a concrete run can be evaluated.

This module names nothing of a particular service. It provides reachability, the
invariant rule over every run, replay of an explicit action list, and the
restriction of a system to the actions an environment assumption allows.
-/
namespace HeliumOracles.Lib.Transition

variable {σ α : Type}

/-- States reached from `start` by a finite sequence of enabled actions. -/
inductive Reach (step : σ → α → Option σ) (start : σ) : σ → Prop where
  | start : Reach step start start
  | step {s s' : σ} (action : α) (before : Reach step start s)
      (moved : step s action = some s') : Reach step start s'

/-- Replay an action list; the replay stops with `none` at the first refused action. -/
def run (step : σ → α → Option σ) : σ → List α → Option σ
  | s, [] => some s
  | s, action :: rest => (step s action).bind (fun s' => run step s' rest)

section Rules

variable {step : σ → α → Option σ} {start : σ}

/-- The invariant rule: a property of the start state that every enabled action
preserves holds in every reachable state. -/
theorem Reach.invariant (inv : σ → Prop) (base : inv start)
    (preserve : ∀ s action s', inv s → step s action = some s' → inv s')
    {s : σ} (reached : Reach step start s) : inv s := by
  induction reached with
  | start => exact base
  | step action _ moved ih => exact preserve _ action _ ih moved

theorem Reach.trans {s t : σ} (first : Reach step start s) (second : Reach step s t) :
    Reach step start t := by
  induction second with
  | start => exact first
  | step action _ moved ih => exact .step action ih moved

@[simp] theorem run_nil (s : σ) : run step s [] = some s := rfl

@[simp] theorem run_cons (s : σ) (action : α) (rest : List α) :
    run step s (action :: rest) = (step s action).bind (fun s' => run step s' rest) := rfl

theorem run_append (s : σ) (first second : List α) :
    run step s (first ++ second) = (run step s first).bind (fun t => run step t second) := by
  induction first generalizing s with
  | nil => rfl
  | cons action rest ih =>
    simp only [List.cons_append, run_cons]
    cases step s action with
    | none => rfl
    | some s' => exact ih s'

/-- Every successful replay ends in a reachable state. -/
theorem reach_of_run {s t : σ} (actions : List α) (from_s : Reach step start s)
    (replayed : run step s actions = some t) : Reach step start t := by
  induction actions generalizing s with
  | nil =>
    simp only [run_nil, Option.some.injEq] at replayed
    exact replayed ▸ from_s
  | cons action rest ih =>
    simp only [run_cons] at replayed
    cases moved : step s action with
    | none => simp [moved] at replayed
    | some s' =>
      simp only [moved, Option.bind_some] at replayed
      exact ih (.step action from_s moved) replayed

/-- A replay from the start state whose final state passes a decidable check
exhibits a reachable state with that property: the form of a counterexample. -/
theorem exists_reach_of_run (actions : List α) {goal : σ → Prop} [DecidablePred goal]
    (replayed : (run step start actions).map (fun s => decide (goal s)) = some true) :
    ∃ s, Reach step start s ∧ goal s := by
  cases final : run step start actions with
  | none => simp [final] at replayed
  | some s =>
    simp only [final, Option.map_some, Option.some.injEq, decide_eq_true_eq] at replayed
    exact ⟨s, reach_of_run actions .start final, replayed⟩

end Rules

/-- The system under an environment assumption: actions that `allowed` rejects
in a state are not enabled there. -/
def restrict (step : σ → α → Option σ) (allowed : σ → α → Prop)
    [∀ s action, Decidable (allowed s action)] (s : σ) (action : α) : Option σ :=
  if allowed s action then step s action else none

theorem restrict_some {step : σ → α → Option σ} {allowed : σ → α → Prop}
    [∀ s action, Decidable (allowed s action)] {s s' : σ} {action : α}
    (moved : restrict step allowed s action = some s') :
    allowed s action ∧ step s action = some s' := by
  unfold restrict at moved
  split at moved
  · exact ⟨‹_›, moved⟩
  · cases moved

/-- Runs of the restricted system are runs of the original one. -/
theorem Reach.of_restrict {step : σ → α → Option σ} {allowed : σ → α → Prop}
    [∀ s action, Decidable (allowed s action)] {start s : σ}
    (reached : Reach (restrict step allowed) start s) : Reach step start s := by
  induction reached with
  | start => exact .start
  | step action _ moved ih => exact .step action ih (restrict_some moved).2

end HeliumOracles.Lib.Transition
