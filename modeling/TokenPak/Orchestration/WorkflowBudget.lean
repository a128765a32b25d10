import Mathlib.Algebra.Ring.Int.Defs
import TokenPak.Library.Dict

/-! The token budget of a workflow. Tokens are whole numbers of any sign, as in the source; the two
comparisons with a percentage are parameters, and so the percentages in the messages are left out. -/

namespace TokenPak.Orchestration.Budget
open Library

inductive BudgetError
  | valueError (text : String)
  | keyError (text : String)
  deriving DecidableEq

inductive BudgetEventKind
  | usageRecorded | rebalanced | warning | critical | floorApplied | exhausted
  deriving DecidableEq

inductive BudgetData
  | usage (used allocated : Int)
  | remains (remaining total : Int)
  | stillPending (pending : List String)
  | bonus (delta : Int) (bonusStep : String) (bonusTokens : Int)
  | split (delta : Int) (pending : List String)
  | floor (remaining floor : Int) (pending : List String)
  deriving DecidableEq

structure BudgetEvent where
  kind : BudgetEventKind
  step : String
  data : BudgetData
  deriving DecidableEq

/-- `warn_pct` and `critical_pct`. -/
structure Limits where
  /-- `tokens_used > allocation * warn_pct` -/
  overspent : Int → Int → Bool
  /-- `floor(total * critical_pct)` -/
  criticalThreshold : Int → Int

structure WorkflowBudget where
  total : Int
  steps : List String
  minFloor : Int
  pending : List String
  allocations : Dict String Int
  usage : Dict String Int
  remaining : Int

/-- A loop that assigns one value after another. -/
def setAll (dict : Dict String Int) (entries : List (String × Int)) : Dict String Int :=
  entries.foldl (fun dict entry => dict.set entry.1 entry.2) dict

def evenSplit (minFloor : Int) (steps : List String) (pool : Int) : Dict String Int :=
  let base := pool / steps.length
  let remainder := pool - base * steps.length
  let floored := max base minFloor
  setAll .empty (steps.zipIdx.map fun entry =>
    (entry.1, floored + if (entry.2 : Int) < remainder then 1 else 0))

def create (total : Int) (steps : List String) (minFloor : Int) : Except BudgetError WorkflowBudget :=
  if total ≤ 0 then .error (.valueError "total budget must be positive")
  else if steps = [] then .error (.valueError "steps must be non-empty")
  else if minFloor < 0 then .error (.valueError "min_floor must be >= 0")
  else .ok ⟨total, steps, minFloor, steps, evenSplit minFloor steps total, .empty, total⟩

namespace WorkflowBudget

def stepAllocation (budget : WorkflowBudget) (step : String) : Except BudgetError Int :=
  match budget.allocations.get step with
  | none => .error (.keyError ("Unknown step '" ++ step ++ "'"))
  | some allocation => .ok allocation

/-- What `record_usage` does to the budget before it rebalances. -/
def charge (budget : WorkflowBudget) (step : String) (tokensUsed : Int) : WorkflowBudget :=
  { budget with
    usage := budget.usage.set step tokensUsed
    pending := budget.pending.erase step
    remaining := if budget.remaining - tokensUsed < 0 then 0 else budget.remaining - tokensUsed }

def usageEvents (limits : Limits) (budget : WorkflowBudget) (step : String)
    (tokensUsed allocation : Int) : List BudgetEvent :=
  [⟨.usageRecorded, step, .usage tokensUsed allocation⟩] ++
    (if allocation > 0 ∧
      limits.overspent tokensUsed allocation =
      true then [⟨.warning, step, .usage tokensUsed allocation⟩] else []) ++
    (if budget.remaining < limits.criticalThreshold budget.total then [⟨.critical, step, .remains budget.remaining budget.total⟩] else []) ++
    (if budget.remaining = 0 ∧
      budget.pending ≠ [] then [⟨.exhausted, step, .stillPending budget.pending⟩] else [])

def withBonus (budget : WorkflowBudget) (delta : Int) : Dict String Int :=
  let newAllocs := evenSplit budget.minFloor budget.pending budget.remaining
  match budget.pending with
  | [] => newAllocs
  | first :: _ => if delta > 0 then newAllocs.set first ((newAllocs.get first).getD 0 + delta) else newAllocs

def rebalanceEvents (budget : WorkflowBudget) (triggeringStep : String) (delta : Int) : List BudgetEvent :=
  match budget.pending with
  | [] => []
  | first :: _ =>
    if delta > 0 then [⟨.rebalanced, triggeringStep, .bonus delta first delta⟩]
    else if delta < 0 then [⟨.rebalanced, triggeringStep, .split delta budget.pending⟩]
    else [⟨.rebalanced, triggeringStep, .split 0 budget.pending⟩]

/-- The tokens of the allocations when none of them is below the floor. -/
def totalAfterFloor (budget : WorkflowBudget) (newAllocs : Dict String Int) : Int :=
  (newAllocs.values.map fun allocation => max allocation budget.minFloor).sum

def clamped (budget : WorkflowBudget) (newAllocs : Dict String Int) : Dict String Int :=
  setAll newAllocs (budget.pending.map fun step => (step, max budget.minFloor ((newAllocs.get step).getD 0)))

def floorTotal (budget : WorkflowBudget) : Int := budget.minFloor * budget.pending.length

/-- The floor for every pending step, and the rest one token at a time. -/
def shareExtra (budget : WorkflowBudget) (newAllocs : Dict String Int) : Dict String Int :=
  let extra := budget.remaining - budget.floorTotal
  setAll newAllocs (budget.pending.zipIdx.map fun entry =>
    (entry.1, budget.minFloor + (extra / budget.pending.length + if (entry.2 : Int) < extra % budget.pending.length then 1 else 0)))

def floorOnly (budget : WorkflowBudget) (newAllocs : Dict String Int) : Dict String Int :=
  setAll newAllocs (budget.pending.map fun step => (step, budget.minFloor))

/-- `_rebalance` after the bonus: the floor is enforced and the total is capped. -/
def enforceFloor (budget : WorkflowBudget) (triggeringStep : String) (newAllocs : Dict String Int) :
    List BudgetEvent × Dict String Int :=
  if budget.totalAfterFloor newAllocs > budget.remaining ∧ budget.remaining ≥ 0 then
    if budget.floorTotal ≤ budget.remaining then ([], budget.shareExtra (budget.clamped newAllocs))
    else
      ([⟨.floorApplied, triggeringStep, .floor budget.remaining budget.minFloor budget.pending⟩],
        budget.floorOnly (budget.clamped newAllocs))
  else ([], newAllocs)

def commit (budget : WorkflowBudget) (newAllocs : Dict String Int) : WorkflowBudget :=
  { budget with
    allocations := setAll budget.allocations (budget.pending.map fun step => (step, (newAllocs.get step).getD budget.minFloor)) }

def rebalance (budget : WorkflowBudget) (triggeringStep : String) (delta : Int) :
    List BudgetEvent × WorkflowBudget :=
  if budget.pending = [] then ([], budget)
  else
    let enforced := budget.enforceFloor triggeringStep (budget.withBonus delta)
    (budget.rebalanceEvents triggeringStep delta ++ enforced.1, budget.commit enforced.2)

def recordUsage (limits : Limits) (budget : WorkflowBudget) (step : String) (tokensUsed : Int) :
    Except BudgetError (List BudgetEvent × WorkflowBudget) :=
  if step ∉ budget.steps then .error (.keyError ("Unknown step '" ++ step ++ "'"))
  else if step ∉ budget.pending then .error (.valueError ("Step '" ++ step ++ "' already recorded"))
  else if tokensUsed < 0 then .error (.valueError "tokens_used must be >= 0")
  else
    match budget.allocations.get step with
    | none => .error (.keyError step)
    | some allocation =>
      let charged := budget.charge step tokensUsed
      let events := usageEvents limits charged step tokensUsed allocation
      if charged.pending = [] then .ok (events, charged)
      else
        let rebalanced := charged.rebalance step (allocation - tokensUsed)
        .ok (events ++ rebalanced.1, rebalanced.2)

end WorkflowBudget

end TokenPak.Orchestration.Budget
