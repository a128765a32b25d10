import TokenPak.Dispatch.Gatehouse
import TokenPak.Dispatch.Resume
import TokenPak.Library.Recovery

/-! The fulfillment line of one run, over the run ledger. Every call writes its
records one by one and may end at any of them; the next call finds what is left.
What workers, reviewers and users do is an answer of the world. -/

namespace TokenPak.Dispatch
open Library

/-- The records of one run. Station runs stand in the order of their rows. -/
structure Ledger where
  run : Option Run
  stationRuns : List StationRun
  effects : List Effect
  decisions : List Decision
  lateResults : List String
  receipts : List (String × RunStatus)
  deriving DecidableEq

def Ledger.empty : Ledger := ⟨none, [], [], [], [], []⟩

inductive StationEnd where
  | completed (payload : String)
  | failed (spendGuardExceeded : Bool)
  | cancelled (lateResult : Option String)
  deriving DecidableEq

structure StationWork where
  ended : StationEnd
  effectIds : List String
  deriving DecidableEq

inductive Op where
  | tryClaimRunLease | releaseRunLease
  | readRun | writeRun (run : Run)
  | readStationRuns | writeStationRun (row : StationRun)
  | readEffects (stationRunId : String) | markEffectApplied (effectId : String)
  | writeDecision (decision : Decision) | writeLateResult (id : String) | writeReceipt (id : String) (finalStatus : RunStatus)
  | hashWorkspace | uuid | isCancelled
  | work (stationRunId : String) (station : RouteStation)
  | review (station : RouteStation)

abbrev Reply : Op → Type
  | .tryClaimRunLease => Bool
  | .readRun => Option Run
  | .readStationRuns => List StationRun
  | .readEffects _ => List Effect
  | .hashWorkspace => Workspace
  | .uuid => String
  | .isCancelled => Bool
  | .work .. => StationWork
  | .review _ => ReviewerStationResult
  | .releaseRunLease | .writeRun _ | .writeStationRun _ | .markEffectApplied _ | .writeDecision _ | .writeLateResult _
  | .writeReceipt .. => Unit

abbrev Line := Program Op Reply

def ask (op : Op) : Line (Reply op) := Program.ask op

namespace Ledger

/-- `INSERT OR REPLACE` gives the row a new place at the end. -/
def replaceStationRun (row : StationRun) (rows : List StationRun) : List StationRun :=
  rows.filter (·.id ≠ row.id) ++ [row]

/-- One answered operation. A worker leaves its effects as it will; an identifier
is drawn once. -/
def Answers (ledger : Ledger) : (op : Op) → Reply op → Ledger → Prop
  | .readRun, run, after => run = ledger.run ∧ after = ledger
  | .writeRun run, _, after => after = { ledger with run := some run }
  | .readStationRuns, rows, after => rows = ledger.stationRuns ∧ after = ledger
  | .writeStationRun row, _, after =>
      after = { ledger with stationRuns := replaceStationRun row ledger.stationRuns }
  | .readEffects id, effects, after => effects = ledger.effects.filter (·.stationRunId = id) ∧ after = ledger
  | .markEffectApplied id, _, after => after = { ledger with effects := ledger.effects.map fun effect =>
      if effect.id = id then { effect with status := .applied, finalized := true } else effect }
  | .writeDecision decision, _, after =>
      after = { ledger with decisions := ledger.decisions.filter (·.id ≠ decision.id) ++ [decision] }
  | .writeLateResult id, _, after => after = { ledger with lateResults := ledger.lateResults ++ [id] }
  | .writeReceipt id status, _, after =>
      after = { ledger with receipts := ledger.receipts.filter (·.1 ≠ id) ++ [(id, status)] }
  | .work .., _, after => ∃ effects, after = { ledger with effects := effects }
  | .uuid, id, after => (∀ row ∈ ledger.stationRuns, row.id ≠ id) ∧ after = ledger
  | .tryClaimRunLease, _, after => after = ledger
  | .releaseRunLease, _, after => after = ledger
  | .hashWorkspace, _, after => after = ledger
  | .isCancelled, _, after => after = ledger
  | .review _, _, after => after = ledger

end Ledger

inductive LineStatus where
  | delivered | deliveryReadyWithWarning | blocked | decisionRequired | cancelled | failed
  deriving DecidableEq

structure FulfillmentResult where
  status : LineStatus
  run : Run
  stationRuns : List StationRun
  decision : Option Decision
  deliveryPackage : Option DeliveryPackage
  lateResults : List String
  effectIds : List String
  reviewerResult : Option ReviewerStationResult
  receipt : Option String
  reason : String

inductive LineError where
  | alreadyTerminal (runId : String) (status : RunStatus)
  | leaseHeld (runId : String)
  | unknownRun (runId : String)
  | indexError

structure Job where
  runId : String
  route : Route
  manifest : Manifest

structure Progress where
  run : Run
  stationRuns : List StationRun
  lateResults : List String
  effectIds : List String

def Progress.result (progress : Progress) (status : LineStatus) (run : Run) (decision : Option Decision)
    (reason : String) : FulfillmentResult :=
  ⟨status, run, progress.stationRuns, decision, none, progress.lateResults, progress.effectIds,
    none, none, reason⟩

/-- Link an identifier onto a run and write it, once. -/
def appendOnce (linked : List String) (link : List String → Run) (run : Run) (id : String) : Line Run :=
  if id ∈ linked then pure run else do
    let updated := link (linked ++ [id])
    ask (.writeRun updated)
    return updated

def appendStationRun (run : Run) : String → Line Run :=
  appendOnce run.stationRuns (fun ids => { run with stationRuns := ids }) run

def appendDecision (run : Run) : String → Line Run :=
  appendOnce run.decisions (fun ids => { run with decisions := ids }) run

def appendEffect (run : Run) : String → Line Run :=
  appendOnce run.effects (fun ids => { run with effects := ids }) run

def appendLateResult (run : Run) : String → Line Run :=
  appendOnce run.lateResults (fun ids => { run with lateResults := ids }) run

def finalizeRun (run : Run) (status : RunStatus) (decision : Option Decision) : Line Run := do
  let persisted ← ask .readRun
  match persisted.filter fun run => run.status.Terminal with
  | some finished => return finished
  | none =>
    let linked := decision.elim run.decisions fun decision =>
      if decision.id ∈ run.decisions then run.decisions else run.decisions ++ [decision.id]
    let final := { run with status := status, decisions := linked }
    ask (.writeRun final)
    return final

structure StationRunOutcome where
  stationRun : StationRun
  lateResult : Option String
  effectIds : List String
  spendGuardExceeded : Bool

def stationResultSchemaVersion : String := "station_result.v1"

def stationRun (station : RouteStation) (attemptNumber : Nat) : Line StationRunOutcome := do
  let id ← ask .uuid
  let row :=
    fun status payload =>
      (⟨id, station.id, status, payload, stationResultSchemaVersion, attemptNumber⟩ : StationRun)
  let cancelled ← ask .isCancelled
  if cancelled then
    ask (.writeStationRun (row .cancelled none))
    return ⟨row .cancelled none, none, [], false⟩
  else
    ask (.writeStationRun (row .running none))
    let work ← ask (.work id station)
    match work.ended with
    | .completed payload =>
      ask (.writeStationRun (row .completed (some (.worker payload))))
      return ⟨row .completed (some (.worker payload)), none, work.effectIds, false⟩
    | .failed spendGuardExceeded =>
      ask (.writeStationRun (row .failed none))
      return ⟨row .failed none, none, work.effectIds, spendGuardExceeded⟩
    | .cancelled lateResult =>
      ask (.writeStationRun (row .cancelled none))
      match lateResult with
      | some late => ask (.writeLateResult late)
      | none => pure ()
      return ⟨row .cancelled none, lateResult, work.effectIds, false⟩

def appendEffects (run : Run) : List String → Line Run
  | [] => pure run
  | id :: ids => do
    let run ← appendEffect run id
    appendEffects run ids

def runWorkerStation (run : Run) (station : RouteStation) (attemptNumber : Nat) :
    Line (Run × StationRunOutcome) := do
  let outcome ← stationRun station attemptNumber
  let run ← appendStationRun run outcome.stationRun.id
  let run ← appendEffects run outcome.effectIds
  let run ← match outcome.lateResult with
    | some late => appendLateResult run late
    | none => pure run
  return (run, outcome)

def runReviewerStation (run : Run) (station : RouteStation) :
    Line (Run × ReviewerStationResult × StationRun) := do
  let result ← ask (.review station)
  let id ← ask .uuid
  let row : StationRun := ⟨id, station.id, .completed, some (.review result), "reviewer_station_result.v1", 1⟩
  ask (.writeStationRun row)
  let run ← appendStationRun run row.id
  return (run, result, row)

/-- Each station that will not run is recorded as cancelled. -/
def markRemainingCancelled (run : Run) : List RouteStation → Line Run
  | [] => pure run
  | station :: stations => do
    let id ← ask .uuid
    let row : StationRun := ⟨id, station.id, .cancelled, none, station.outputSchema, 1⟩
    ask (.writeStationRun row)
    let run ← appendStationRun run row.id
    markRemainingCancelled run stations

/-- Every piece the route asks for, filled from the stations that ran. -/
def deliveryFields (route : Route) (stationRuns : List StationRun) : PackageFields := fun piece =>
  if route.delivery piece then some (match piece with
    | .summary => ["Ran " ++ toString stationRuns.length ++ " station(s) on route " ++ route.id ++ "."]
    | .filesChanged => ["(files-changed detail recorded in the Run Ledger effects)"]
    | .tests => ["station tests not run in v0.1-alpha (deterministic)"]
    | .risks => ["no external side effects (v0.1-alpha tool registry)"]
    | .nextSteps => ["review the delivery package"])
  else none

def receiptIdForRun (runId : String) : String :=
  "receipt_" ++ (if runId.startsWith "run_" then (runId.drop 4).toString else runId)

def lineOutcome : DeliveryStatus → LineStatus × RunStatus
  | .deliveryReady => (.delivered, .delivered)
  | .deliveryReadyWithWarning => (.deliveryReadyWithWarning, .deliveryReady)
  | .decisionRequired => (.decisionRequired, .gateReview)
  | .blocked => (.blocked, .blocked)

def buildAndWriteReceipt (run : Run) (finalStatus : RunStatus) : Line (Option String) := do
  ask (.writeReceipt (receiptIdForRun run.id) finalStatus)
  ask (.writeRun { run with receiptId := some (receiptIdForRun run.id) })
  return some (receiptIdForRun run.id)

def issueReceipt (run : Run) : LineStatus × RunStatus → Line (Option String)
  | (.delivered, status) => buildAndWriteReceipt run status
  | (.deliveryReadyWithWarning, status) => buildAndWriteReceipt run status
  | _ => pure none

def recordDecision (run : Run) : Option Decision → Line Run
  | some decision => do
    ask (.writeDecision decision)
    appendDecision run decision.id
  | none => pure run

/-- Map a delivery package onto the line's result and the run's status. -/
def finalizeWithDelivery (progress : Progress) (package : DeliveryPackage)
    (review : Option ReviewerStationResult) :
    Line FulfillmentResult := do
  let run ← recordDecision progress.run package.decision
  let run ← finalizeRun run (lineOutcome package.status).2 package.decision
  let receipt ← issueReceipt run (lineOutcome package.status)
  return { status := (lineOutcome package.status).1, run := run, stationRuns := progress.stationRuns
           decision := package.decision, deliveryPackage := some package, lateResults := progress.lateResults
           effectIds := progress.effectIds, reviewerResult := review, receipt := receipt, reason := package.summary }

/-- A station of the walk, with the stations from it on and those after it. -/
structure Visit where
  station : RouteStation
  remaining : List RouteStation
  following : List RouteStation

/-- The stations of the loop from an index on. A negative index counts from the
end, so that the loop begins with the last station and then takes all. -/
def visits (stations : List RouteStation) (start : Int) : Option (List Visit) :=
  let onwards := fun first : Nat => (stations.zipIdx.drop first).map fun (station, index) =>
    (⟨station, stations.drop index, stations.drop (index + 1)⟩ : Visit)
  if start < 0 then stations.getLast?.map fun last => ⟨last, [last], stations⟩ :: onwards 0
  else some (onwards start.toNat)

def packageFor (job : Job) (stationRuns : List StationRun) (review : ReviewerStationResult)
    (usesReviewer : Bool) :
    DeliveryPackage :=
  evaluateDelivery job.manifest.jobId
    (runChecks job.manifest job.route stationRuns (deliveryFields job.route stationRuns) fun _ =>
      none) review none
    usesReviewer

/-- The sequential walk. A reviewer station ends it with the delivery gate; a walk
that meets none passes the gate without a review. -/
def walkStations (job : Job) (progress : Progress) (attemptNumber : Nat) : List Visit → Line FulfillmentResult
  | [] => finalizeWithDelivery progress (packageFor job progress.stationRuns (.forStatus .pass) false) none
  | visit :: later => do
    let cancelled ← ask .isCancelled
    if cancelled then
      let run ← markRemainingCancelled progress.run visit.remaining
      let run ← finalizeRun run .cancelled none
      return progress.result .cancelled run none "Cancellation requested; remaining stations marked cancelled."
    else if visit.station.isReviewerStation then
      let (run, review, row) ← runReviewerStation progress.run visit.station
      let progress := { progress with run := run, stationRuns := progress.stationRuns ++ [row] }
      finalizeWithDelivery progress (packageFor job progress.stationRuns review true) (some review)
    else
      let (run, outcome) ← runWorkerStation progress.run visit.station attemptNumber
      let progress : Progress := ⟨run, progress.stationRuns ++ [outcome.stationRun],
        progress.lateResults ++ outcome.lateResult.toList, progress.effectIds ++ outcome.effectIds⟩
      if outcome.stationRun.status = .cancelled then
        let run ← markRemainingCancelled run visit.following
        let run ← finalizeRun run .cancelled none
        return progress.result .cancelled run none "Cancellation propagated mid-station; late result captured."
      else if outcome.spendGuardExceeded then
        let decision := Decision.spendGuard run.id visit.station.id
        ask (.writeDecision decision)
        let run ← finalizeRun run .blocked (some decision)
        return progress.result .decisionRequired run (some decision) "Spend Guard hard-stopped a station."
      else if outcome.stationRun.status = .failed then
        let run ← finalizeRun run .failed none
        return progress.result .failed run none ("Station '" ++ visit.station.id ++ "' failed; line halted.")
      else walkStations job progress 1 later

def walkFrom (job : Job) (progress : Progress) (start : Int) (attemptNumber : Nat) :
    Line (Except LineError FulfillmentResult) :=
  match visits job.route.stations start with
  | none => pure (.error .indexError)
  | some plan => .ok <$> walkStations job progress attemptNumber plan

def FulfillmentLine.run (job : Job) : Line (Except LineError FulfillmentResult) := do
  let claimed ← ask .tryClaimRunLease
  if claimed = false then return .error (.leaseHeld job.runId)
  let existing ← ask .readRun
  match existing.filter fun run => run.status.Terminal with
  | some finished =>
    ask .releaseRunLease
    return .error (.alreadyTerminal job.runId finished.status)
  | none =>
    let run : Run := ⟨job.runId, .running, [], [], [], [], none⟩
    ask (.writeRun run)
    let result ← walkFrom job ⟨run, [], [], []⟩ 0 1
    ask .releaseRunLease
    return result

def stationIndex (route : Route) (stationId : String) : Int :=
  match route.stations.findIdx? (·.id = stationId) with
  | some index => index
  | none => -1

/-- Where to go on: after the last station, or with it again. -/
def resumeStartIndex (route : Route) (stationRuns : List StationRun) (outcome : ResumeOutcome) : Int :=
  match stationRuns.getLast? with
  | none => 0
  | some last =>
    if outcome.action = .continueNextStation ∨
      outcome.action = .promoteAndContinue then stationIndex route last.stationId + 1
    else stationIndex route last.stationId

def promoteEffects : List String → Line Unit
  | [] => pure ()
  | id :: ids => do
    ask (.markEffectApplied id)
    promoteEffects ids

def ResumeOutcome.firstAttempt (outcome : ResumeOutcome) : Nat :=
  if outcome.action = .rerunStation then outcome.rerunAttemptNumber.getD 1 else 1

def readEffectsForLast (stationRuns : List StationRun) : Line (List Effect) :=
  match stationRuns.getLast? with
  | some last => ask (.readEffects last.id)
  | none => pure []

def transitionStation (stationRuns : List StationRun) (outcome : ResumeOutcome) : Line Unit :=
  match stationRuns.getLast?, outcome.stationStatusTransition with
  | some last, some status => ask (.writeStationRun { last with status := status })
  | _, _ => pure ()

def followOutcome (job : Job) (run : Run) (stationRuns : List StationRun) (outcome : ResumeOutcome) :
    Line (Except LineError FulfillmentResult) :=
  match outcome.action, outcome.decision with
  | .decisionRequired, some decision => do
    ask (.writeDecision decision)
    let final ← finalizeRun run .blocked (some decision)
    return .ok (Progress.result ⟨run, stationRuns, [],
      []⟩ .decisionRequired final (some decision) outcome.reason)
  | _, _ => do
    promoteEffects outcome.promoteEffectIds
    walkFrom job ⟨run, stationRuns, [], []⟩
      (resumeStartIndex job.route stationRuns outcome) outcome.firstAttempt

/-- Reconcile the last station and follow the outcome. -/
def resumeRun (job : Job) (run : Run) : Line (Except LineError FulfillmentResult) := do
  let stationRuns ← ask .readStationRuns
  let effects ← readEffectsForLast stationRuns
  let workspace ← ask .hashWorkspace
  let outcome := reconcileRun stationRuns effects workspace
  transitionStation stationRuns outcome
  followOutcome job run stationRuns outcome

def FulfillmentLine.resume (job : Job) : Line (Except LineError FulfillmentResult) := do
  let first ← ask .readRun
  match first with
  | none => return .error (.unknownRun job.runId)
  | some run =>
    if run.status.Terminal then return .error (.alreadyTerminal job.runId run.status)
    let claimed ← ask .tryClaimRunLease
    if claimed = false then return .error (.leaseHeld job.runId)
    let again ← ask .readRun
    match again with
    | none =>
      ask .releaseRunLease
      return .error (.unknownRun job.runId)
    | some run =>
      if run.status.Terminal then
        ask .releaseRunLease
        return .error (.alreadyTerminal job.runId run.status)
      else
        let result ← resumeRun job run
        ask .releaseRunLease
        return result

def Ledger.lastEffects (ledger : Ledger) : List Effect :=
  ledger.stationRuns.getLast?.elim [] fun last => ledger.effects.filter (·.stationRunId = last.id)

def Ledger.reconciled (ledger : Ledger) (workspace : Workspace) : ResumeOutcome :=
  reconcileRun ledger.stationRuns ledger.lastEffects workspace

theorem readEffectsForLast_reads {crash : Ledger → Prop} {ledger : Ledger} (safe : crash ledger) :
    (readEffectsForLast ledger.stationRuns).Sustains Ledger.Answers crash
      (fun after effects => after = ledger ∧ effects = ledger.lastEffects) ledger := by
  unfold readEffectsForLast Ledger.lastEffects
  split
  next last found =>
    refine ⟨safe, fun effects after read => ?_⟩
    obtain ⟨rfl, rfl⟩ := read
    exact .pure safe ⟨rfl, by rw [found]; rfl⟩
  next missing => exact .pure safe ⟨rfl, by rw [missing]; rfl⟩

/-- A call on the run, by its route and with some manifest. -/
inductive Request where
  | run (manifest : Manifest)
  | resume (manifest : Manifest)

def Request.program (runId : String) (route : Route) : Request → Line (Except LineError FulfillmentResult)
  | .run manifest => FulfillmentLine.run ⟨runId, route, manifest⟩
  | .resume manifest => FulfillmentLine.resume ⟨runId, route, manifest⟩

/-- The ledgers that calls can leave, each call ended or stopped anywhere, and each
made in a state that its rule allows. -/
inductive History (runId : String) (route : Route) (rule : Ledger → Request → Prop) : Ledger → Prop
  | start : History runId route rule .empty
  | call {ledger after : Ledger} {request : Request} (earlier : History runId route rule ledger)
      (allowed : rule ledger request)
      (stops : Program.Stops Ledger.Answers (request.program runId route) ledger after) : History runId route rule after

/-- The ledgers that calls can leave after a given one. -/
inductive Since (runId : String) (route : Route) (start : Ledger) : Ledger → Prop
  | now : Since runId route start start
  | call {ledger after : Ledger} {request : Request} (earlier : Since runId route start ledger)
      (stops : Program.Stops Ledger.Answers (request.program runId route) ledger after) : Since runId route start after

/-! A world that computes its answers, so that a history can be run. -/

/-- What the workers, the reviewer and the files do. -/
structure Scene where
  cancelled : Bool
  work : StationWork
  effects : List Effect
  review : ReviewerStationResult
  workspace : Workspace

def Scene.answer (scene : Scene) (id : String) (ledger : Ledger) : (op : Op) → Option (Reply op × Ledger)
  | .readRun => some (ledger.run, ledger)
  | .writeRun run => some ((), { ledger with run := some run })
  | .readStationRuns => some (ledger.stationRuns, ledger)
  | .writeStationRun row =>
      some ((), { ledger with stationRuns := Ledger.replaceStationRun row ledger.stationRuns })
  | .readEffects id => some (ledger.effects.filter (·.stationRunId = id), ledger)
  | .markEffectApplied id => some ((), { ledger with effects := ledger.effects.map fun effect =>
      if effect.id = id then { effect with status := .applied, finalized := true } else effect })
  | .writeDecision decision => some ((), { ledger with decisions := ledger.decisions.filter (·.id ≠ decision.id) ++ [decision] })
  | .writeLateResult id => some ((), { ledger with lateResults := ledger.lateResults ++ [id] })
  | .writeReceipt id status =>
      some ((), { ledger with receipts := ledger.receipts.filter (·.1 ≠ id) ++ [(id, status)] })
  | .work .. => some (scene.work, { ledger with effects := scene.effects })
  | .uuid => if ∀ row ∈ ledger.stationRuns, row.id ≠ id then some (id, ledger) else none
  | .tryClaimRunLease => some (true, ledger)
  | .releaseRunLease => some ((), ledger)
  | .hashWorkspace => some (scene.workspace, ledger)
  | .isCancelled => some (scene.cancelled, ledger)
  | .review _ => some (scene.review, ledger)

theorem Scene.answer_sound (scene : Scene) (id : String) (ledger : Ledger) (op : Op)
    (reply : Reply op) (after : Ledger)
    (answered : scene.answer id ledger op = some (reply, after)) : ledger.Answers op reply after := by
  cases op with
  | readRun | readStationRuns | readEffects =>
    cases answered
    exact ⟨rfl, rfl⟩
  | uuid =>
    dsimp only [answer] at answered
    split at answered
    next fresh =>
      cases answered
      exact ⟨fresh, rfl⟩
    next => cases answered
  | work =>
    cases answered
    exact ⟨_, rfl⟩
  | writeRun | writeStationRun | markEffectApplied | writeDecision | writeLateResult | writeReceipt | tryClaimRunLease
  | releaseRunLease | hashWorkspace | isCancelled | review =>
    cases answered
    rfl

/-- The ledger after a call that is answered as often as there are identifiers. -/
def Scene.play (scene : Scene) (runId : String) (route : Route) (request : Request)
    (ids : List String) (ledger : Ledger) :
    Option Ledger := Program.drive scene.answer ids (request.program runId route) ledger

theorem Scene.play_stops {scene : Scene} {runId : String} {route : Route} {request : Request}
    {ids : List String}
    {ledger after : Ledger} (played : scene.play runId route request ids ledger = some after) :
    Program.Stops Ledger.Answers (request.program runId route) ledger after :=
      Program.drive_stops scene.answer_sound played

/-- The result of a call and the ledger it leaves. -/
def Scene.finish (scene : Scene) (runId : String) (route : Route) (request : Request)
    (ids : List String) (ledger : Ledger) :
    Option (Except LineError FulfillmentResult × Ledger) :=
  Program.finish scene.answer ids (request.program runId route) ledger

theorem Scene.finish_returns {scene : Scene} {runId : String} {route : Route} {request : Request}
    {ids : List String}
    {ledger after : Ledger} {result : Except LineError FulfillmentResult}
    (finished : scene.finish runId route request ids ledger = some (result, after)) :
    Program.Returns Ledger.Answers (request.program runId route) ledger result after :=
  Program.finish_returns scene.answer_sound finished

end TokenPak.Dispatch
