import Mathlib.Algebra.Ring.Int.Defs
import Mathlib.Data.List.Infix
import Mathlib.Data.String.Basic
import TokenPak.Dispatch.Records
import TokenPak.Library.Ranking

/-! Route selection: the precedence layers, the scoring of a route for a job, and
the suggestion a language model may add to the scores. -/

namespace TokenPak.Dispatch.Selection
open TokenPak.Library

inductive RiskLevel where
  | low | medium | high | critical
  deriving DecidableEq

def RiskLevel.order : RiskLevel → Nat
  | .low => 0
  | .medium => 1
  | .high => 2
  | .critical => 3

def autoDispatchModes : List AutonomyMode := [.dispatchWithApproval, .autoDispatchLimited]

structure StationProfile extends RouteStation where
  requiredCapabilities : List String
  deriving DecidableEq

structure DispatchRoute where
  id : String
  name : String
  description : String
  intents : List String
  defaultRisk : RiskLevel
  stations : List StationProfile
  deriving DecidableEq

structure DispatchWorker where
  id : String
  roles : List String
  capabilities : List String
  deriving DecidableEq

structure RouteRegistry where
  all : List DispatchRoute
  sorted : (all.map DispatchRoute.id).Pairwise (· < ·)

namespace RouteRegistry

def ids (registry : RouteRegistry) : List String := registry.all.map DispatchRoute.id

def get (registry : RouteRegistry) (routeId : String) : Option DispatchRoute :=
  registry.all.find? (·.id = routeId)

def forIntent (registry : RouteRegistry) (intent : String) : List DispatchRoute :=
  registry.all.filter (intent ∈ ·.intents)

end RouteRegistry

structure WorkerRegistry where
  all : List DispatchWorker
  sorted : (all.map DispatchWorker.id).Pairwise (· < ·)

def WorkerRegistry.forRole (registry : WorkerRegistry) (role : String) : List DispatchWorker :=
  registry.all.filter (role ∈ ·.roles)

/-- Why a worker station has no worker. -/
inductive UnboundReason where
  | noWorkerDeclaresRole (role : String)
  | missingCapabilities (role : String) (required candidates : List String)
  deriving DecidableEq

structure RouteResolutionError where
  routeId : String
  stationId : String
  reason : UnboundReason
  deriving DecidableEq

def resolveStationWorkers (station : StationProfile) (workers : WorkerRegistry) : List DispatchWorker :=
  match station.requiredRole with
  | none => []
  | some role =>
      (workers.forRole role).filter fun worker => station.requiredCapabilities ⊆ worker.capabilities

abbrev Bindings := List (String × List DispatchWorker)

/-- Assignment to a key of a dictionary: a key that is there keeps its place. -/
def Bindings.assign (bindings : Bindings) (stationId : String) (workers : List DispatchWorker) : Bindings :=
  if stationId ∈ bindings.map Prod.fst then
    bindings.map fun entry => if entry.1 = stationId then (stationId, workers) else entry
  else bindings ++ [(stationId, workers)]

def bindStation (route : DispatchRoute) (workers : WorkerRegistry) (bindings : Bindings)
    (station : StationProfile) :
    Except RouteResolutionError Bindings :=
  match station.requiredRole with
  | none => .ok bindings
  | some role =>
    match resolveStationWorkers station workers with
    | [] =>
      match (workers.forRole role).map DispatchWorker.id with
      | [] => .error ⟨route.id, station.id, .noWorkerDeclaresRole role⟩
      | candidates =>
        .error ⟨route.id, station.id,
          .missingCapabilities role (station.requiredCapabilities.insertionSort (· ≤ ·)) candidates⟩
    | eligible => .ok (bindings.assign station.id eligible)

def bindRoute (route : DispatchRoute) (workers : WorkerRegistry) : Except RouteResolutionError Bindings :=
  route.stations.foldlM (bindStation route workers) []

def routeIsBindable (route : DispatchRoute) (workers : WorkerRegistry) : Bool :=
  match bindRoute route workers with
  | .ok _ => true
  | .error _ => false

/-- `RISK_FLAG_REGISTRY`, low for a flag it does not hold. -/
def riskFlagLevel (flag : String) : RiskLevel :=
  if flag ∈ ["touches_secrets", "touches_credentials"] then .critical
  else if flag ∈ ["deletes_data", "schema_migration", "public_release_surface", "external_side_effect",
    "auth_or_permissions"] then .high
  else if flag = "touches_cli" then .medium
  else .low

structure DispatchJob where
  id : String
  rawRequest : String
  detectedIntent : String
  riskFlags : List String
  autonomyMode : AutonomyMode

/-- What the front dock hands over; a blocking decision is material missing information. -/
structure Intake where
  job : DispatchJob
  isBlocked : Bool

def jobRiskLevel (job : DispatchJob) : RiskLevel :=
  job.riskFlags.foldl (fun level flag =>
    if level.order < (riskFlagLevel flag).order then riskFlagLevel flag else level) .low

def riskCompatible (jobRisk routeRisk : RiskLevel) : Prop := jobRisk.order ≤ routeRisk.order

instance (jobRisk routeRisk : RiskLevel) : Decidable (riskCompatible jobRisk routeRisk) :=
  inferInstanceAs (Decidable (_ ≤ _))

structure RouteSuggestion where
  routeId : String
  confidence : Int
  reasons : List String
  missingInfo : List String
  riskFlags : List String

inductive TextField where
  | absent | text (value : String) | items (values : List String) | other

def strTuple : TextField → List String
  | .absent | .other => []
  | .text value => [value]
  | .items values => values

inductive Confidence where
  | absent | other | int (value : Int) | float (value : Rat) | nan | infinity

/-- An answer of the model's boundary; its `route_id` may be no text. -/
structure SuggestionPayload where
  routeId : Option String
  confidence : Confidence
  reasons : TextField
  missingInfo : TextField
  riskFlags : TextField

/-- The exceptions of a selection. `int` raises its own on a number that is not finite. -/
inductive Fault where
  | invalidRouteSuggestion (message : String) | valueError | overflowError | keyError (routeId : String)

def Confidence.toInt : Confidence → Except Fault Int
  | .absent => .ok 0
  | .other => .error (.invalidRouteSuggestion "suggestion 'confidence' must be a number")
  | .int value => .ok value
  | .float value => .ok (value.num.tdiv value.den)
  | .nan => .error .valueError
  | .infinity => .error .overflowError

def RouteSuggestion.fromPayload (payload : SuggestionPayload) : Except Fault RouteSuggestion := do
  let some routeId := payload.routeId.filter (· ≠ "")
    | .error (.invalidRouteSuggestion "suggestion missing a non-empty 'route_id'")
  let confidence ← payload.confidence.toInt
  if ¬ (0 ≤ confidence ∧ confidence ≤ 100) then
    .error (.invalidRouteSuggestion "suggestion 'confidence' must be in [0, 100]")
  return ⟨routeId, confidence, strTuple payload.reasons, strTuple payload.missingInfo,
    strTuple payload.riskFlags⟩

/-- What a call of the model's boundary returns. -/
inductive Answer where
  | suggestion (value : RouteSuggestion) | mapping (payload : SuggestionPayload) | other (typeName : String)

def Answer.parse : Answer → Except Fault RouteSuggestion
  | .suggestion value => .ok value
  | .mapping payload => RouteSuggestion.fromPayload payload
  | .other typeName => .error (.invalidRouteSuggestion ("suggestion must be a mapping, got " ++ typeName))

/-- The model's boundary, called with the request and the candidates; `none` when the call raises. -/
abbrev SuggestClient := String → List String → Option Answer

/-- Consult the model; an answer that is malformed or names no candidate is dropped. -/
def suggest (client : Option SuggestClient) (request : String) (candidates : List String) :
    Except Fault (Option RouteSuggestion) :=
  match client.bind (· request candidates) with
  | none => .ok none
  | some answer =>
    match answer.parse with
    | .error (.invalidRouteSuggestion _) => .ok none
    | .error fault => .error fault
    | .ok suggestion => .ok (if suggestion.routeId ∈ candidates then some suggestion else none)

inductive Component where
  | forbiddenActionRequired | exactRouteTriggerMatch | intentMatch | riskCompatibility | riskMismatch
  | autonomyCompatibility | missingRequiredInfo | fileContextHintMatch
  deriving DecidableEq

def Component.weight : Component → Int
  | .forbiddenActionRequired => -100
  | .exactRouteTriggerMatch => 40
  | .intentMatch => 25
  | .riskCompatibility => 10
  | .riskMismatch => -25
  | .autonomyCompatibility => 10
  | .missingRequiredInfo => -40
  | .fileContextHintMatch => 15

def thresholdAutoDispatch : Int := 60
def thresholdDecisionFloor : Int := 40

structure RouteScore where
  routeId : String
  score : Int
  components : List Component
  bindable : Bool
  deriving DecidableEq

def RouteScore.confidence (score : RouteScore) : Int := max 0 (min 100 score.score)

def scoreComponents (route : DispatchRoute) (job : DispatchJob) (workers : WorkerRegistry)
    (suggestion : Option RouteSuggestion) (materialMissing : Bool) : List Component :=
  List.flatten [
    if routeIsBindable route workers then [] else [.forbiddenActionRequired],
    if job.detectedIntent ≠ "" ∧ job.detectedIntent ∈ route.intents then [.exactRouteTriggerMatch,
      .intentMatch] else [],
    if riskCompatible (jobRiskLevel job) route.defaultRisk then [.riskCompatibility] else [.riskMismatch],
    if job.autonomyMode ∈ autoDispatchModes then [.autonomyCompatibility] else [],
    if materialMissing then [.missingRequiredInfo] else [],
    if suggestion.any (·.routeId = route.id) then [.fileContextHintMatch] else []]

def scoreRoute (route : DispatchRoute) (job : DispatchJob) (workers : WorkerRegistry)
    (suggestion : Option RouteSuggestion) (materialMissing : Bool) : RouteScore :=
  let components := scoreComponents route job workers suggestion materialMissing
  ⟨route.id, (components.map Component.weight).sum, components, routeIsBindable route workers⟩

inductive Layer where
  | explicitRoute | projectRule | exactRouteTriggerMatch | intentClassification | registryTieBreak | dispatchDecision
  deriving DecidableEq

/-- The texts an outcome gives as its reasons, each with the values it shows. -/
inductive Reason where
  | explicitUnknown (routeId : String) (known : List String)
  | explicitUnstaffed (error : RouteResolutionError)
  | userSelected
  | ruleUnknown (routeId : String) (known : List String)
  | ruleUnstaffed (error : RouteResolutionError)
  | ruleForced
  | unstaffed (error : RouteResolutionError)
  | component (component : Component)
  | confirm (routeId : String) (confidence : Int)
  | refusing (routeId : String) (confidence : Int)
  | undecided

inductive Status where
  | autoDispatch | needsApproval | decision | refused
  deriving DecidableEq

structure DecisionOption where
  id : String
  label : String
  description : String
  tradeoffs : List String

/-- The decision that asks the user for a route; its default is never applied by itself. -/
structure RouteDecision where
  id : String
  jobId : String
  createdAt : Int
  layer : Layer
  reason : Reason
  options : List DecisionOption
  recommendation : String

structure SelectionOutcome where
  status : Status
  route : Option DispatchRoute
  confidence : Int
  precedenceLayer : Layer
  decision : Option RouteDecision := none
  bindings : Bindings := []
  reasons : List Reason
  scores : List RouteScore := []

abbrev ProjectRules := List (String × String)

def ProjectRules.routeForIntent (rules : ProjectRules) (intent : String) : Option String :=
  rules.lookup intent

structure Runtime where
  routes : RouteRegistry
  workers : WorkerRegistry

def cancelOption : DecisionOption :=
  ⟨"cancel", "Cancel the request", "Do not dispatch this request to any route.", ["No work is performed."]⟩

def normalizeRouteId (routeId : String) : String :=
  if "route.".toList <+: routeId.toList then routeId else "route." ++ routeId ++ ".v1"

namespace Runtime
variable (runtime : Runtime)

def routeOptions : List DecisionOption :=
  runtime.routes.all.map fun route => ⟨route.id, route.name, route.description, []⟩

def scoreAll (job : DispatchJob) (suggestion : Option RouteSuggestion) (materialMissing : Bool) :
    List RouteScore :=
  Ranking.ranked RouteScore.score RouteScore.routeId
    (runtime.routes.all.map fun route => scoreRoute route job runtime.workers suggestion materialMissing)

def dispatchOrApprove (job : DispatchJob) (route : DispatchRoute) (confidence : Int) (layer : Layer)
    (bindings : Bindings)
    (reasons : List Reason) (scores : List RouteScore) : SelectionOutcome :=
  { status := if job.autonomyMode ∈ autoDispatchModes then .autoDispatch else .needsApproval, route := some route,
    confidence, precedenceLayer := layer, bindings, reasons, scores }

def refuse (route : Option DispatchRoute) (confidence : Int) (layer : Layer) (reasons : List Reason)
    (scores : List RouteScore) : SelectionOutcome :=
  { status := .refused, route, confidence, precedenceLayer := layer, reasons, scores }

def buildDecisionOutcome (job : DispatchJob) (createdAt : Int) (layer : Layer) (confidence : Int)
    (reason : Reason)
    (recommended : Option String) (scores : List RouteScore) : SelectionOutcome :=
  let recommendation := match recommended.filter (· ≠ "") with
    | some routeId => routeId
    | none => (runtime.routeOptions.head?.map DecisionOption.id).getD "no_route"
  let decision : RouteDecision :=
    ⟨"decision_" ++ job.id ++ "_route_selection", job.id, createdAt, layer, reason,
    runtime.routeOptions ++ [cancelOption], recommendation⟩
  { status := .decision, route := none, confidence, precedenceLayer := layer, decision, reasons := [reason], scores }

/-- A route that the user or the project names: it skips the scoring, but must exist and bind. -/
def selectNamed (job : DispatchJob) (routeId : String) (createdAt : Int) (layer : Layer)
    (unknown : String → List String → Reason) (unstaffed : RouteResolutionError → Reason) (chosen : Reason) :
    SelectionOutcome :=
  match runtime.routes.get (normalizeRouteId routeId) with
  | none => runtime.buildDecisionOutcome job createdAt layer 0 (unknown routeId runtime.routes.ids) none []
  | some route =>
    match bindRoute route runtime.workers with
    | .error error => refuse (some route) 0 layer [unstaffed error] []
    | .ok bindings => dispatchOrApprove job route 100 layer bindings [chosen] []

def selectExplicit (job : DispatchJob) (routeId : String) (createdAt : Int) : SelectionOutcome :=
  runtime.selectNamed job routeId createdAt .explicitRoute .explicitUnknown .explicitUnstaffed .userSelected

def selectForced (job : DispatchJob) (routeId : String) (createdAt : Int) : SelectionOutcome :=
  runtime.selectNamed job routeId createdAt .projectRule .ruleUnknown .ruleUnstaffed .ruleForced

def finalizeScored (job : DispatchJob) (route : DispatchRoute) (score : RouteScore)
    (createdAt : Int) (layer : Layer)
    (scores : List RouteScore) : SelectionOutcome :=
  if thresholdAutoDispatch ≤ score.confidence then
    match bindRoute route runtime.workers with
    | .error error => refuse (some route) score.confidence layer [.unstaffed error] scores
    | .ok bindings =>
      dispatchOrApprove job route score.confidence layer bindings (score.components.map Reason.component) scores
  else if thresholdDecisionFloor ≤ score.confidence then
    runtime.buildDecisionOutcome job createdAt layer score.confidence (.confirm route.id score.confidence) (some route.id) scores
  else refuse (some route) score.confidence layer [.refusing route.id score.confidence] scores

/-- The one route that declares the intent, or the one among several whose id holds it. -/
def triggered (intent : String) : Option (DispatchRoute × Layer) :=
  match runtime.routes.forIntent intent with
  | [] => none
  | [route] => some (route, .exactRouteTriggerMatch)
  | routes =>
    match routes.filter fun route => intent.toList <:+: route.id.toList with
    | [route] => some (route, .intentClassification)
    | _ => none

def selectScored (intake : Intake) (suggestion : Option RouteSuggestion) (createdAt : Int) :
    Except Fault SelectionOutcome :=
  let job := intake.job
  match runtime.triggered job.detectedIntent with
  | some (route, layer) =>
    .ok (runtime.finalizeScored job route (scoreRoute route job runtime.workers suggestion intake.isBlocked) createdAt layer [])
  | none =>
    let scores := runtime.scoreAll job suggestion intake.isBlocked
    match Ranking.leader RouteScore.score scores with
    | some best =>
      match runtime.routes.get best.routeId with
      | none => .error (.keyError best.routeId)
      | some route => .ok (runtime.finalizeScored job route best createdAt .registryTieBreak scores)
    | none =>
      .ok (runtime.buildDecisionOutcome job createdAt .dispatchDecision ((scores.head?.map RouteScore.confidence).getD 0)
        .undecided none scores)

/-- The route that the user or, failing that, the project names. -/
def named (intake : Intake) (explicitRoute : Option String) (rules : Option ProjectRules) (createdAt : Int) :
    Option SelectionOutcome :=
  match explicitRoute.filter (· ≠ "") with
  | some routeId => some (runtime.selectExplicit intake.job routeId createdAt)
  | none =>
    match (rules.bind fun rules => rules.routeForIntent intake.job.detectedIntent).filter (· ≠ "") with
    | some routeId => some (runtime.selectForced intake.job routeId createdAt)
    | none => none

def selectRoute (client : Option SuggestClient) (intake : Intake) (explicitRoute : Option String)
    (rules : Option ProjectRules) (createdAt : Int) : Except Fault SelectionOutcome :=
  match runtime.named intake explicitRoute rules createdAt with
  | some outcome => .ok outcome
  | none => do
    let suggestion ← suggest client intake.job.rawRequest runtime.routes.ids
    runtime.selectScored intake suggestion createdAt

end Runtime
end TokenPak.Dispatch.Selection
