import Mathlib.Init

/-! The records of a dispatch run: the route it walks, the stations it has run,
their effects and the decisions that stop it. Fields that no step reads are left
out. -/

namespace TokenPak.Dispatch

inductive StationRunStatus where
  | queued | contextReady | running | completed | failed | failedInterrupted | needsRecovery | cancelled | skipped
  deriving DecidableEq

inductive AutonomyMode where
  | advisory | draft | dispatchWithApproval | autoDispatchLimited
  deriving DecidableEq

inductive ReviewerStatus where
  | pass | warning | fail
  deriving DecidableEq

inductive DeliveryRecommendationStatus where
  | ready | readyWithWarning | blocked
  deriving DecidableEq

/-- The one place in which a recommendation is derived from a verdict. -/
def ReviewerStatus.delivery : ReviewerStatus → DeliveryRecommendationStatus
  | .pass => .ready
  | .warning => .readyWithWarning
  | .fail => .blocked

/-- A review; its delivery recommendation follows from the verdict. -/
structure ReviewerStationResult where
  status : ReviewerStatus
  requiredFixes : List String
  recommendation : DeliveryRecommendationStatus
  derived : recommendation = status.delivery := by rfl
  deriving DecidableEq

def ReviewerStationResult.forStatus (status : ReviewerStatus) : ReviewerStationResult :=
  ⟨status, [], status.delivery, rfl⟩

inductive Piece where
  | summary | filesChanged | tests | risks | nextSteps
  deriving DecidableEq

def pieces : List Piece := [.summary, .filesChanged, .tests, .risks, .nextSteps]

structure RouteStation where
  id : String
  requiredRole : Option String
  systemComponent : Option String
  outputSchema : String
  deriving DecidableEq

structure Route where
  id : String
  stations : List RouteStation
  delivery : Piece → Bool

structure Manifest where
  jobId : String
  routeId : String
  goal : String
  acceptanceCriteria : List String
  allowedActions : List String
  forbiddenActions : List String
  deniedPaths : List String

/-- What a station hands on: a worker's own mapping, or a review. -/
inductive Payload where
  | worker (text : String)
  | review (result : ReviewerStationResult)
  deriving DecidableEq

structure StationRun where
  id : String
  stationId : String
  status : StationRunStatus
  payload : Option Payload
  schemaVersion : String
  attemptNumber : Nat
  deriving DecidableEq

inductive EffectStatus where
  | planned | applied | failed | rolledBack | needsRecovery | needsManualRecovery
  deriving DecidableEq

inductive EffectTargetType where
  | file | commandOutput | artifact
  deriving DecidableEq

structure Effect where
  id : String
  stationRunId : String
  targetType : EffectTargetType
  target : String
  beforeHash : Option String
  afterHash : Option String
  status : EffectStatus
  rollbackAvailable : Bool
  finalized : Bool
  deriving DecidableEq

inductive Decision where
  | resumeDrift (stationRunId : String) (drifted : Nat) (singleCleanRollback : Bool)
  | resumePlannedUnknown (stationRunId : String) (planned : Nat)
  | reviewerWarning (jobId : String)
  | spendGuard (runId stationId : String)
  deriving DecidableEq

def Decision.id : Decision → String
  | .resumeDrift stationRunId _ _ => "decision_" ++ stationRunId ++ "_resume_drift"
  | .resumePlannedUnknown stationRunId _ => "decision_" ++ stationRunId ++ "_resume_planned_unknown"
  | .reviewerWarning jobId => "decision_" ++ jobId ++ "_reviewer_warning"
  | .spendGuard runId _ => "decision_" ++ runId ++ "_spend_guard"

/-- The station run that a decision of a resume is about. -/
def Decision.interrupted : Decision → Option String
  | .resumeDrift stationRunId _ _ => some stationRunId
  | .resumePlannedUnknown stationRunId _ => some stationRunId
  | .reviewerWarning _ => none
  | .spendGuard _ _ => none

inductive RunStatus where
  | running | delivered | deliveryReady | gateReview | blocked | cancelled | failed | withdrawn
  deriving DecidableEq

/-- A run in one of these is never walked, finalized or resumed again. -/
def RunStatus.Terminal (status : RunStatus) : Prop :=
  status = .delivered ∨ status = .cancelled ∨ status = .failed ∨ status = .withdrawn

instance (status : RunStatus) : Decidable status.Terminal := inferInstanceAs (Decidable (_ ∨ _))

structure Run where
  id : String
  status : RunStatus
  stationRuns : List String
  decisions : List String
  effects : List String
  lateResults : List String
  receiptId : Option String
  deriving DecidableEq

def RouteStation.isWorkerStation (station : RouteStation) : Bool := station.requiredRole.isSome

def RouteStation.isReviewerStation (station : RouteStation) : Bool :=
  station.isWorkerStation && station.requiredRole == some "reviewer"

end TokenPak.Dispatch
