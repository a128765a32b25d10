import TokenPak.Library.Table

/-! The durable ledger of upstream calls in flight: one row for each plan id, written
before the call is dispatched and updated once its outcome is known. A process that
starts marks the rows its predecessor left in flight. -/

namespace TokenPak.Proxy.ExecutionLedger
open Library

def restartFailureReason : String := "proxy_restart_detected"
def defaultRetentionSeconds : Int := 7 * 24 * 3600

inductive Status where
  | inFlight
  | completed
  | failed
  deriving DecidableEq

/-- A row of `execution_plans`. -/
structure Plan where
  tipPlanId : String
  requestId : String
  requestHash : String
  targetUrl : String
  streamStarted : Bool
  status : Status
  failureReason : String
  createdAt : Int
  updatedAt : Int
  recoveredAt : Option Int
  acknowledged : Bool
  pid : Nat
  deriving DecidableEq

abbrev Plans := Table Plan String fun plan => some plan.tipPlanId

/-- What `begin_plan` is called with, and the process that calls it. -/
structure Request where
  tipPlanId : String
  requestId : String
  requestHash : String
  targetUrl : String
  streamStarted : Bool
  pid : Nat
  deriving DecidableEq

/-- The ledger writes and reads nothing when it is switched off or the plan id is empty. -/
def Records (enabled : Bool) (tipPlanId : String) : Prop := enabled = true ∧ tipPlanId ≠ ""

instance (enabled : Bool) (tipPlanId : String) : Decidable (Records enabled tipPlanId) :=
  inferInstanceAs (Decidable (_ ∧ _))

/-- The row that `begin_plan` inserts. -/
def Request.plan (request : Request) (now : Int) : Plan where
  tipPlanId := request.tipPlanId
  requestId := request.requestId
  requestHash := request.requestHash
  targetUrl := request.targetUrl
  streamStarted := request.streamStarted
  status := .inFlight
  failureReason := ""
  createdAt := now
  updatedAt := now
  recoveredAt := none
  acknowledged := false
  pid := request.pid

/-- `begin_plan`: a row already under the plan id is overwritten, whatever its status. -/
def beginPlan (enabled : Bool) (request : Request) (now : Int) (plans : Plans) : Plans :=
  if Records enabled request.tipPlanId then
    plans.upsert (request.plan now)
      (fun row => { request.plan now with tipPlanId := row.tipPlanId }) fun _ => rfl
  else plans

/-- `complete_plan`. -/
def completePlan (enabled : Bool) (tipPlanId : String) (now : Int) (plans : Plans) : Plans :=
  if Records enabled tipPlanId then
    plans.update (fun row => row.tipPlanId = tipPlanId ∧ row.status = .inFlight)
      (fun row => { row with status := .completed, updatedAt := now }) fun _ => rfl
  else plans

/-- `fail_plan`; the reason is cut at 200 characters. -/
def failPlan (enabled : Bool) (tipPlanId reason : String) (now : Int) (plans : Plans) : Plans :=
  if Records enabled tipPlanId then
    plans.update (fun row => row.tipPlanId = tipPlanId ∧ row.status = .inFlight)
      (fun row => { row with
        status := .failed, failureReason := String.ofList (reason.toList.take 200), updatedAt := now })
      fun _ => rfl
  else plans

/-- A recovered row as the startup log names it. -/
structure RecoveredPlan where
  tipPlanId : String
  requestId : String
  requestHash : String
  targetUrl : String
  streamStarted : Bool
  startedAt : Int
  recoveredAt : Int
  orphanedPid : Nat
  deriving DecidableEq

def Plan.recovered (row : Plan) (now : Int) : RecoveredPlan where
  tipPlanId := row.tipPlanId
  requestId := row.requestId
  requestHash := row.requestHash
  targetUrl := row.targetUrl
  streamStarted := row.streamStarted
  startedAt := row.createdAt
  recoveredAt := now
  orphanedPid := row.pid

def Plan.restarted (row : Plan) (now : Int) : Plan :=
  { row with status := .failed, failureReason := restartFailureReason, updatedAt := now, recoveredAt := some now }

/-- The update that the sweep makes for one of the rows it found. -/
def markRestarted (now : Int) (plans : Plans) (found : Plan) : Plans :=
  plans.update (fun row => row.tipPlanId = found.tipPlanId ∧ row.status = .inFlight)
    (·.restarted now) fun _ => rfl

/-- `recover_orphaned_plans`. -/
def recoverOrphanedPlans (enabled : Bool) (retentionSeconds now : Int) (plans : Plans) :
    List RecoveredPlan × Plans :=
  if enabled then
    let found := plans.rows.filter fun row => row.status = .inFlight
    let marked := found.foldl (markRestarted now) plans
    let kept :=
      if 0 < retentionSeconds then
        marked.delete fun row =>
          (row.status = .completed ∨ row.status = .failed) ∧ row.updatedAt < now - retentionSeconds
      else marked
    (found.map (·.recovered now), kept)
  else ([], plans)

/-- The record that answers a retry of an interrupted plan. -/
structure RestartFailure where
  tipPlanId : String
  requestId : String
  requestHash : String
  targetUrl : String
  streamStarted : Bool
  startedAt : Int
  recoveredAt : Option Int
  deriving DecidableEq

def Plan.failure (row : Plan) : RestartFailure where
  tipPlanId := row.tipPlanId
  requestId := row.requestId
  requestHash := row.requestHash
  targetUrl := row.targetUrl
  streamStarted := row.streamStarted
  startedAt := row.createdAt
  recoveredAt := row.recoveredAt

/-- The rows whose restart failure no request was told of yet. -/
def Plan.Unannounced (row : Plan) : Prop :=
  row.status = .failed ∧ row.failureReason = restartFailureReason ∧ row.acknowledged = false

instance (row : Plan) : Decidable row.Unannounced := inferInstanceAs (Decidable (_ ∧ _ ∧ _))

/-- `check_restart_recovered_failure`; the record is given once. -/
def checkRestartRecoveredFailure (enabled : Bool) (tipPlanId : String) (plans : Plans) :
    Option RestartFailure × Plans :=
  if Records enabled tipPlanId then
    match plans.rows.find? fun row => row.tipPlanId = tipPlanId ∧ row.Unannounced with
    | none => (none, plans)
    | some row =>
      (some row.failure,
        plans.update (fun row => row.tipPlanId = tipPlanId) (fun row => { row with acknowledged := true }) fun _ => rfl)
  else (none, plans)

/-- The read with which `check_restart_recovered_failure` begins. -/
def findRestartFailure (enabled : Bool) (tipPlanId : String) (plans : Plans) : Option Plan :=
  if Records enabled tipPlanId then plans.rows.find? fun row => row.tipPlanId = tipPlanId ∧
    row.Unannounced else none

/-- The update with which it ends, on a connection of its own like every call of the ledger. -/
def acknowledge (tipPlanId : String) (plans : Plans) : Plans :=
  plans.update (fun row => row.tipPlanId = tipPlanId)
    (fun row => { row with acknowledged := true }) fun _ => rfl

end TokenPak.Proxy.ExecutionLedger
