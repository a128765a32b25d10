import TokenPak.Dispatch.Records

/-! The structural checks of a delivery and the gate that combines them with the
reviewer's verdict. -/

namespace TokenPak.Dispatch

inductive CheckName where
  | manifestCompleteness | routeStationSchema | acceptanceCriteriaPresence | stationOutputSchema
  | permissionConstraints | deliveryPackageCompleteness
  deriving DecidableEq

def CheckName.text : CheckName → String
  | .manifestCompleteness => "manifest_completeness"
  | .routeStationSchema => "route_station_schema"
  | .acceptanceCriteriaPresence => "acceptance_criteria_presence"
  | .stationOutputSchema => "station_output_schema"
  | .permissionConstraints => "permission_constraints"
  | .deliveryPackageCompleteness => "delivery_package_completeness"

structure CheckResult where
  name : CheckName
  passed : Bool
  deriving DecidableEq

abbrev Report := List CheckResult

def Report.passed (report : Report) : Bool := report.all CheckResult.passed

def Report.failures (report : Report) : List CheckResult := report.filter fun check => ! check.passed

def mandatoryDeniedPaths : List String := [".env", ".git/**", "secrets/**", "license/**"]

def checkManifestCompleteness (manifest : Manifest) : CheckResult :=
  ⟨.manifestCompleteness, manifest.jobId ≠ "" ∧ manifest.routeId ≠ "" ∧ manifest.goal ≠ ""⟩

/-- A station declares its output and is either a worker's or a system's. -/
def stationShapeProblem (station : RouteStation) : Bool :=
  station.outputSchema = "" || (station.requiredRole.any (· ≠ "") == station.systemComponent.any (· ≠ ""))

def checkRouteStationSchema (route : Route) : CheckResult :=
  ⟨.routeStationSchema, ! route.stations.any stationShapeProblem⟩

def checkAcceptanceCriteriaPresence (manifest : Manifest) : CheckResult :=
  ⟨.acceptanceCriteriaPresence, manifest.acceptanceCriteria ≠ []⟩

abbrev Validators := String → Option (Payload → Bool)

def checkStationOutputSchema (validators : Validators) (stationRuns : List StationRun) : CheckResult :=
  ⟨.stationOutputSchema, stationRuns.all fun run => run.status ≠ .completed ||
    run.payload.any fun payload => (validators run.schemaVersion).all fun validator => validator payload⟩

def checkPermissionConstraints (manifest : Manifest) : CheckResult :=
  ⟨.permissionConstraints, (∀ action ∈ manifest.allowedActions, action ∉ manifest.forbiddenActions) ∧
    ∀ glob ∈ mandatoryDeniedPaths, glob ∈ manifest.deniedPaths⟩

abbrev PackageFields := Piece → Option (List String)

def checkDeliveryPackageCompleteness (route : Route) (fields : PackageFields) : CheckResult :=
  ⟨.deliveryPackageCompleteness, pieces.all fun piece => ! route.delivery piece ||
    (fields piece).any (· ≠ [])⟩

def runChecks (manifest : Manifest) (route : Route) (stationRuns : List StationRun) (fields : PackageFields)
    (validators : Validators) : Report :=
  [checkManifestCompleteness manifest, checkRouteStationSchema route,
    checkAcceptanceCriteriaPresence manifest,
    checkStationOutputSchema validators stationRuns, checkPermissionConstraints manifest,
    checkDeliveryPackageCompleteness route fields]

inductive DeliveryStatus where
  | deliveryReady | decisionRequired | deliveryReadyWithWarning | blocked
  deriving DecidableEq

structure DeliveryPackage where
  jobId : String
  status : DeliveryStatus
  report : Report
  requiredFixes : List String
  decision : Option Decision
  costNote : Option String
  reviewerStatus : ReviewerStatus
  summary : String

def reviewerCostNote : String := "This route uses a Reviewer Station; +1 LLM call vs single-shot execution."

/-- Combine the structural report with a verdict. A warning waits for its user
unless it was resolved. -/
def evaluateDelivery (jobId : String) (report : Report) (review : ReviewerStationResult)
    (warningDecisionResolution : Option Bool) (routeUsesReviewer : Bool) : DeliveryPackage :=
  let costNote := if routeUsesReviewer then some reviewerCostNote else none
  if report.passed then
    match review.status, warningDecisionResolution with
    | .pass, _ =>
      ⟨jobId, .deliveryReady, report, [], none, costNote, .pass, "Reviewer pass; Delivery Gate proceeds."⟩
    | .fail, _ =>
      ⟨jobId, .blocked, report, review.requiredFixes, none, costNote, .fail,
        "Reviewer fail; Delivery Gate blocked. required_fixes attached; no automatic repair loop (v0.1-alpha)."⟩
    | .warning, none =>
      ⟨jobId, .decisionRequired, report, [], some (.reviewerWarning jobId), costNote, .warning,
        "Reviewer warning; user decision required (accept/reject)."⟩
    | .warning, some true =>
      ⟨jobId, .deliveryReadyWithWarning, report, [], none, costNote, .warning,
        "Reviewer warning accepted by user; delivery ready with warning."⟩
    | .warning, some false =>
      ⟨jobId, .blocked, report, review.requiredFixes, none, costNote, .warning,
        "Reviewer warning rejected by user; delivery blocked."⟩
  else
    ⟨jobId, .blocked, report, review.requiredFixes, none, costNote, review.status,
      "Delivery Gate blocked on failed structural check(s): " ++
        ", ".intercalate (report.failures.map fun check => check.name.text)⟩

theorem evaluateDelivery_ready {jobId : String} {report : Report} {review : ReviewerStationResult}
    {resolution : Option Bool} {uses : Bool}
    (ready : (evaluateDelivery jobId report review resolution uses).status = .deliveryReady) :
    review.status = .pass := by
  unfold evaluateDelivery at ready
  dsimp only at ready
  split at ready
  · split at ready
    next pass => exact pass
    all_goals cases ready
  · cases ready

end TokenPak.Dispatch
