import Mathlib.Data.List.Basic

/-! Machines that take one action after another. What each action preserves under a
condition on the state in which it comes holds after every run whose actions meet it. -/

namespace TokenPak.Library.Machine
variable {State Action : Type} {act : State → Action → State} {meets weaker : State → Action → Prop}
variable {start : State} {action : Action} {actions later : List Action}

def run (act : State → Action → State) (start : State) (actions : List Action) : State :=
  actions.foldl act start

/-- Every action of the run meets the condition in the state in which it comes. -/
def Each (act : State → Action → State) (meets : State → Action → Prop) : State → List Action → Prop
  | _, [] => True
  | state, action :: rest => meets state action ∧ Each act meets (act state action) rest

instance instDecidableEach [∀ state action, Decidable (meets state action)] (start : State) :
    (actions : List Action) → Decidable (Each act meets start actions)
  | [] => isTrue trivial
  | action :: rest => @instDecidableAnd _ _ inferInstance (instDecidableEach (act start action) rest)

@[simp] theorem run_nil : run act start [] = start := rfl

@[simp] theorem run_cons : run act start (action :: actions) = run act (act start action) actions := rfl

@[simp] theorem run_append : run act start (actions ++ later) = run act (run act start actions) later :=
  List.foldl_append

theorem each_append :
    Each act meets start (actions ++ later) ↔ Each act meets start actions ∧
      Each act meets (run act start actions) later := by
  induction actions generalizing start with
  | nil => simp [Each]
  | cons action actions ih => simp only [List.cons_append, Each, ih, run_cons, and_assoc]

/-- The rule for invariants. -/
theorem Each.invariant {keeps : State → Prop} (each : Each act meets start actions)
    (step : ∀ state action, keeps state → meets state action → keeps (act state action))
    (holds : keeps start) :
    keeps (run act start actions) := by
  induction actions generalizing start with
  | nil => exact holds
  | cons action actions ih => exact ih each.2 (step _ _ holds each.1)

theorem run_invariant {keeps : State → Prop} (step : ∀ state action, keeps state → keeps (act state action))
    (holds : keeps start) : keeps (run act start actions) := by
  induction actions generalizing start with
  | nil => exact holds
  | cons action actions ih => exact ih (step _ _ holds)

end TokenPak.Library.Machine
