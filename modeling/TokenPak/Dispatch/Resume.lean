import TokenPak.Dispatch.Records

/-! What to do about the last station of an interrupted run. It is rerun, passed
over, or handed to the user; nothing is rolled back here. -/

namespace TokenPak.Dispatch

def StationRunStatus.text : StationRunStatus → String
  | .queued => "queued"
  | .contextReady => "context_ready"
  | .running => "running"
  | .completed => "completed"
  | .failed => "failed"
  | .failedInterrupted => "failed_interrupted"
  | .needsRecovery => "needs_recovery"
  | .cancelled => "cancelled"
  | .skipped => "skipped"

abbrev Workspace := String → Option String

/-- Only a file can be compared with what its effect recorded. -/
def currentHash (workspace : Workspace) (effect : Effect) : Option String :=
  if effect.targetType = .file then workspace effect.target else none

inductive ResumeAction where
  | continueNextStation | rerunStation | promoteAndContinue | decisionRequired
  deriving DecidableEq

inductive Finding where
  | matchesAfter | matchesBefore | drift | unknown
  deriving DecidableEq

structure EffectReconciliation where
  effectId : String
  target : String
  finding : Finding
  deriving DecidableEq

structure ResumeOutcome where
  action : ResumeAction
  stationStatusTransition : Option StationRunStatus
  decision : Option Decision
  rerunAttemptNumber : Option Nat
  promoteEffectIds : List String
  reconciliations : List EffectReconciliation
  reason : String

def reconcileApplied (workspace : Workspace) (last : StationRun) (applied : List Effect) : ResumeOutcome :=
  let matchesAfter := fun effect : Effect => decide (currentHash workspace effect = effect.afterHash)
  let drifted := applied.filter fun effect => ! matchesAfter effect
  let reconciliations := applied.map fun effect =>
    ⟨effect.id, effect.target, if matchesAfter effect then .matchesAfter else .drift⟩
  match drifted with
  | [] =>
    ⟨.continueNextStation, some .needsRecovery, none, none, [], reconciliations,
      "All applied effects match their after_hash; workspace is consistent. Allow continue."⟩
  | first :: rest =>
    let singleClean := rest.isEmpty && first.rollbackAvailable
    ⟨.decisionRequired, some .needsRecovery, some (.resumeDrift last.id drifted.length singleClean), none, [],
      reconciliations, toString drifted.length ++ " applied effect(s) drifted from their after_hash; a " ++
        "decision is required (auto multi-effect rollback is disabled)."⟩

def plannedFinding (workspace : Workspace) (effect : Effect) : Finding :=
  if effect.afterHash.isSome ∧ currentHash workspace effect = effect.afterHash then .matchesAfter
  else if currentHash workspace effect = effect.beforeHash then .matchesBefore
  else .unknown

def reconcilePlanned (workspace : Workspace) (last : StationRun) (planned : List Effect) : ResumeOutcome :=
  let findings := planned.map (plannedFinding workspace)
  let reconciliations := planned.map fun effect => ⟨effect.id, effect.target, plannedFinding workspace effect⟩
  if findings.all (· = .matchesAfter) then
    ⟨.promoteAndContinue, some .needsRecovery, none, none, planned.map Effect.id, reconciliations,
      "Planned effect(s) match after_hash; promote to applied and reconcile."⟩
  else if findings.all (· = .matchesBefore) then
    ⟨.rerunStation, some .needsRecovery, none, some (last.attemptNumber + 1), [], reconciliations,
      "Planned effect(s) match before_hash; effect was not applied — safe to rerun."⟩
  else
    ⟨.decisionRequired, some .needsRecovery, some (.resumePlannedUnknown last.id planned.length), none, [],
      reconciliations, "Planned effect(s) are in a partial/unknown state (mixed hash match); " ++
        "a user decision is required."⟩

/-- Reconcile the last station, given the effects recorded for it. -/
def reconcileRun (stationRuns : List StationRun) (effects : List Effect) (workspace : Workspace) :
    ResumeOutcome :=
  match stationRuns.getLast? with
  | none =>
    ⟨.continueNextStation, none, none, none, [], [], "No station runs exist; start from the first station."⟩
  | some last =>
    match last.status with
    | .completed =>
      ⟨.continueNextStation, none, none, none, [], [],
        "Last station completed; continue with the next station."⟩
    | .running =>
      let applied := effects.filter fun effect => effect.status = .applied
      let planned := effects.filter fun effect => effect.status = .planned ∧ effect.finalized = false
      if applied = [] ∧ planned = [] then
        ⟨.rerunStation, some .failedInterrupted, none, some (last.attemptNumber + 1), [], [],
          "Last station was running with no effects; rerun with attempt+1."⟩
      else if planned ≠ [] then reconcilePlanned workspace last planned
      else reconcileApplied workspace last applied
    | status =>
      ⟨.rerunStation, some .failedInterrupted, none, some (last.attemptNumber + 1), [], [],
        "Last station status '" ++ status.text ++ "' is not 'running'; rerun the station from a clean attempt."⟩

theorem reconcileApplied_marks (workspace : Workspace) (last : StationRun) (applied : List Effect) :
    (reconcileApplied workspace last applied).stationStatusTransition = some .needsRecovery := by
  unfold reconcileApplied
  dsimp only
  split <;> rfl

theorem reconcilePlanned_marks (workspace : Workspace) (last : StationRun) (planned : List Effect) :
    (reconcilePlanned workspace last planned).stationStatusTransition = some .needsRecovery := by
  unfold reconcilePlanned
  dsimp only
  split
  · rfl
  · split <;> rfl

variable {stationRuns : List StationRun}

theorem reconcileRun_marks {last : StationRun} (found : stationRuns.getLast? = some last)
    (open_ : last.status ≠ .completed) (effects : List Effect) (workspace : Workspace) :
    (reconcileRun stationRuns effects workspace).stationStatusTransition = some .failedInterrupted ∨
      (reconcileRun stationRuns effects workspace).stationStatusTransition = some .needsRecovery := by
  unfold reconcileRun
  rw [found]
  dsimp only
  split
  next completed => exact absurd completed open_
  next =>
    split
    next => exact .inl rfl
    next =>
      split
      next => exact .inr (reconcilePlanned_marks _ _ _)
      next => exact .inr (reconcileApplied_marks _ _ _)
  next => exact .inl rfl

theorem reconcileRun_transition {effects : List Effect} {workspace : Workspace}
    {status : StationRunStatus}
    (moves : (reconcileRun stationRuns effects workspace).stationStatusTransition = some status) :
    status ≠ .completed ∧ status ≠ .running ∧ ∀ last, stationRuns.getLast? = some last →
      last.status ≠ .completed := by
  have kept (last : StationRun) (found : stationRuns.getLast? = some last) : last.status ≠ .completed := by
    intro completed
    unfold reconcileRun at moves
    simp only [found, completed] at moves
    cases moves
  cases found : stationRuns.getLast? with
  | none =>
    unfold reconcileRun at moves
    rw [found] at moves
    cases moves
  | some last =>
    have marks := reconcileRun_marks found (kept last found) effects workspace
    rw [moves] at marks
    have open_ : status ≠ .completed ∧ status ≠ .running := by
      rcases marks with same | same <;> cases same <;> decide
    refine ⟨open_.1, open_.2, fun other same => ?_⟩
    rw [← Option.some.inj same]
    exact kept last found

def ResumeOutcome.Asks (outcome : ResumeOutcome) : Prop :=
  outcome.action = .decisionRequired → outcome.decision ≠ none

theorem reconcileApplied_asks (workspace : Workspace) (last : StationRun) (applied : List Effect) :
    (reconcileApplied workspace last applied).Asks := by
  unfold reconcileApplied
  dsimp only
  split
  next => exact nofun
  next => exact fun _ => Option.some_ne_none _

theorem reconcilePlanned_asks (workspace : Workspace) (last : StationRun) (planned : List Effect) :
    (reconcilePlanned workspace last planned).Asks := by
  unfold reconcilePlanned
  dsimp only
  split
  next => exact nofun
  next =>
    split
    next => exact nofun
    next => exact fun _ => Option.some_ne_none _

theorem reconcileRun_asks (stationRuns : List StationRun) (effects : List Effect) (workspace : Workspace) :
    (reconcileRun stationRuns effects workspace).Asks := by
  unfold reconcileRun
  split
  next => exact nofun
  next last found =>
    split
    next => exact nofun
    next =>
      dsimp only
      split
      next => exact nofun
      next =>
        split
        next => exact reconcilePlanned_asks _ _ _
        next => exact reconcileApplied_asks _ _ _
    next => exact nofun

/-- A decision is asked of an interrupted station, which is then marked. -/
def ResumeOutcome.Halts (last : StationRun) (outcome : ResumeOutcome) : Prop :=
  outcome.decision ≠ none → outcome.stationStatusTransition = some .needsRecovery ∧
    ∀ decision, outcome.decision = some decision → decision.interrupted = some last.id

theorem reconcileApplied_halts (workspace : Workspace) (last : StationRun) (applied : List Effect) :
    (reconcileApplied workspace last applied).Halts last := by
  unfold reconcileApplied
  dsimp only
  split
  next => exact fun asked => absurd rfl asked
  next =>
    refine fun _ => ⟨rfl, fun decision same => ?_⟩
    cases same
    rfl

theorem reconcilePlanned_halts (workspace : Workspace) (last : StationRun) (planned : List Effect) :
    (reconcilePlanned workspace last planned).Halts last := by
  unfold reconcilePlanned
  dsimp only
  split
  next => exact fun asked => absurd rfl asked
  next =>
    split
    next => exact fun asked => absurd rfl asked
    next =>
      refine fun _ => ⟨rfl, fun decision same => ?_⟩
      cases same
      rfl

theorem reconcileRun_halts {effects : List Effect} {workspace : Workspace} {decision : Decision}
    (asked : (reconcileRun stationRuns effects workspace).decision = some decision) :
    ∃ last, stationRuns.getLast? = some last ∧ last.status = .running ∧ decision.interrupted = some last.id ∧
      (reconcileRun stationRuns effects workspace).stationStatusTransition = some .needsRecovery := by
  have given : (reconcileRun stationRuns effects workspace).decision ≠ none := by simp [asked]
  cases found : stationRuns.getLast? with
  | none => simp [reconcileRun, found] at asked
  | some last =>
    by_cases running : last.status = .running
    · refine ⟨last, rfl, running, ?_⟩
      have halts : (reconcileRun stationRuns effects workspace).Halts last := by
        unfold reconcileRun
        simp only [found, running]
        split
        next => exact fun asked => absurd rfl asked
        next =>
          split
          next => exact reconcilePlanned_halts _ _ _
          next => exact reconcileApplied_halts _ _ _
      exact ⟨(halts given).2 decision asked, (halts given).1⟩
    · have silent : (reconcileRun stationRuns effects workspace).decision = none := by
        unfold reconcileRun
        simp only [found]
        split
        next => rfl
        next also => exact absurd also running
        next => rfl
      exact absurd silent given

theorem reconcileRun_rerun {last : StationRun} (found : stationRuns.getLast? = some last)
    (uncompleted : last.status ≠ .completed) (stopped : last.status ≠ .running)
    (effects : List Effect) (workspace : Workspace) :
    (reconcileRun stationRuns effects workspace).action = .rerunStation ∧
      (reconcileRun stationRuns effects workspace).rerunAttemptNumber = some (last.attemptNumber + 1) ∧
      (reconcileRun stationRuns effects workspace).stationStatusTransition = some .failedInterrupted := by
  unfold reconcileRun
  simp only [found, and_self]

end TokenPak.Dispatch
