/-
# Guarded runs

A system is a step function on states. What the environment may do in a state
is a separate predicate on actions, so the same system can be run under more
or less demanding assumptions. The states it reaches carry the usual
induction: what holds at the start and is kept by every admitted step holds
throughout.
-/

import Mathlib.Tactic.TypeStar

namespace Transition

variable {σ α : Type*}

/-- The states reached from a start state by steps whose action is admitted in
the state where it is taken. -/
inductive Reach (start : σ → Prop) (admits : σ → α → Prop) (step : σ → α → σ) : σ → Prop
  | start {s : σ} (h : start s) : Reach start admits step s
  | step {s : σ} {a : α} (h : Reach start admits step s) (ha : admits s a) :
      Reach start admits step (step s a)

variable {start start' : σ → Prop} {admits admits' : σ → α → Prop} {step : σ → α → σ}

/-- The invariant rule. The step may use that its source is itself reached. -/
theorem Reach.invariant {I : σ → Prop} (h0 : ∀ s, start s → I s)
    (hstep : ∀ s a, Reach start admits step s → admits s a → I s → I (step s a))
    {s : σ} (h : Reach start admits step s) : I s := by
  induction h with
  | start h => exact h0 _ h
  | step h ha ih => exact hstep _ _ h ha ih

/-- More starts and more admitted actions reach more. -/
theorem Reach.mono (hstart : ∀ s, start s → start' s) (hadmits : ∀ s a, admits s a → admits' s a)
    {s : σ} (h : Reach start admits step s) : Reach start' admits' step s := by
  induction h with
  | start h => exact .start (hstart _ h)
  | step h ha ih => exact ih.step (hadmits _ _ ha)

/-- A list of actions is admitted when each is, in the state its predecessors lead to. -/
def AdmitsAll (admits : σ → α → Prop) (step : σ → α → σ) : σ → List α → Prop
  | _, [] => True
  | s, a :: rest => admits s a ∧ AdmitsAll admits step (step s a) rest

instance AdmitsAll.decidable [∀ s a, Decidable (admits s a)] :
    ∀ (s : σ) (acts : List α), Decidable (AdmitsAll admits step s acts)
  | _, [] => .isTrue trivial
  | s, a :: rest =>
    have := AdmitsAll.decidable (step s a) rest
    inferInstanceAs (Decidable (admits s a ∧ AdmitsAll admits step (step s a) rest))

/-- Where every action is admitted, so is every list of them. -/
theorem AdmitsAll.of_forall (h : ∀ s a, admits s a) (s : σ) (acts : List α) :
    AdmitsAll admits step s acts := by
  induction acts generalizing s with
  | nil => exact trivial
  | cons a rest ih => exact ⟨h s a, ih (step s a)⟩

/-- The state after an admitted list of actions is reached. -/
theorem Reach.foldl {s : σ} (h : Reach start admits step s) {acts : List α}
    (ha : AdmitsAll admits step s acts) : Reach start admits step (acts.foldl step s) := by
  induction acts generalizing s with
  | nil => exact h
  | cons a rest ih => exact ih (h.step ha.1) ha.2

end Transition
