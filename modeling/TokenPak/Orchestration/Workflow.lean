import TokenPak.Library.Machine

/-! Workflows: steps that depend on one another, in one record on disk. Each operation of the
manager loads the record, edits it and writes it back. `run` begins one ready step after the
other and waits for its handler; other operations may arrive while it waits. -/

namespace TokenPak.Orchestration

inductive StepStatus where
  | pending
  | running
  | completed
  | failed
  | skipped
  deriving DecidableEq

inductive WorkflowStatus where
  | pending
  | running
  | completed
  | failed
  | cancelled
  | paused
  deriving DecidableEq

def StepStatus.value : StepStatus → String
  | .pending => "pending"
  | .running => "running"
  | .completed => "completed"
  | .failed => "failed"
  | .skipped => "skipped"

def WorkflowStatus.value : WorkflowStatus → String
  | .pending => "pending"
  | .running => "running"
  | .completed => "completed"
  | .failed => "failed"
  | .cancelled => "cancelled"
  | .paused => "paused"

structure WorkflowStep where
  name : String
  dependsOn : List String := []
  status : StepStatus := .pending
  startedAt : Option Int := none
  completedAt : Option Int := none
  error : Option String := none
  deriving DecidableEq

namespace WorkflowStep

def isDone (step : WorkflowStep) : Bool := step.status = .completed || step.status = .skipped

def isTerminal (step : WorkflowStep) : Bool :=
  step.status = .completed || step.status = .failed || step.status = .skipped

/-! What the operations write into a step. -/

def begin (now : Int) (step : WorkflowStep) : WorkflowStep :=
  { step with status := .running, startedAt := some now }

def complete (now : Int) (step : WorkflowStep) : WorkflowStep :=
  { step with status := .completed, completedAt := some now, error := none }

def fail (now : Int) (error : String) (step : WorkflowStep) : WorkflowStep :=
  { step with status := .failed, completedAt := some now, error := some error }

def skip (now : Int) (step : WorkflowStep) : WorkflowStep :=
  { step with status := .skipped, completedAt := some now }

/-- Running steps wait again, in `pause` and in `resume`. -/
def requeue (step : WorkflowStep) : WorkflowStep :=
  if step.status = .running then { step with status := .pending, startedAt := none } else step

def abandon (step : WorkflowStep) : WorkflowStep :=
  if step.status = .pending ∨ step.status = .running then { step with status := .skipped } else step

end WorkflowStep

structure WorkflowRecord where
  steps : List WorkflowStep
  status : WorkflowStatus := .pending
  startedAt : Option Int := none
  completedAt : Option Int := none
  deriving DecidableEq

inductive WorkflowError where
  | valueError (text : String)
  | keyError (text : String)
  deriving DecidableEq

def getStep (name : String) (steps : List WorkflowStep) : Option WorkflowStep :=
  steps.find? fun step => step.name = name

/-- An edit of the step that `getStep` returns. -/
def editStep (name : String) (edit : WorkflowStep → WorkflowStep) : List WorkflowStep → List WorkflowStep
  | [] => []
  | step :: steps => if step.name = name then edit step :: steps else step :: editStep name edit steps

/-- One pass over the steps as they were declared: each that waits for a failed or a skipped
one is skipped with them. -/
def skipDependents (failed : List String) : List WorkflowStep → List WorkflowStep
  | [] => []
  | step :: steps =>
    if step.status = .pending ∧ ∃ dep ∈ step.dependsOn, dep ∈ failed then
      { step with status := .skipped } :: skipDependents (step.name :: failed) steps
    else step :: skipDependents failed steps

namespace WorkflowRecord

def nextPendingStep (wf : WorkflowRecord) : Option WorkflowStep :=
  let done := (wf.steps.filter WorkflowStep.isDone).map WorkflowStep.name
  wf.steps.find? fun step => step.status = .pending ∧ ∀ dep ∈ step.dependsOn, dep ∈ done

def maybeClose (now : Int) (wf : WorkflowRecord) : WorkflowRecord :=
  if wf.steps.all WorkflowStep.isTerminal then { wf with status := .completed, completedAt := some now } else wf

def start (now : Int) (wf : WorkflowRecord) : Except WorkflowError WorkflowRecord :=
  if wf.status ≠ .pending ∧ wf.status ≠ .paused then
    .error (.valueError ("Cannot start workflow in status '" ++ wf.status.value ++ "'."))
  else .ok { wf with status := .running, startedAt := wf.startedAt.or (some now) }

def requireStep (name : String) (wf : WorkflowRecord) : Except WorkflowError WorkflowStep :=
  match getStep name wf.steps with
  | some step => .ok step
  | none => .error (.keyError ("Step '" ++ name ++ "' not found."))

def beginStep (now : Int) (name : String) (wf : WorkflowRecord) : Except WorkflowError WorkflowRecord := do
  let step ← requireStep name wf
  if step.status ≠ .pending then
    .error (.valueError ("Step '" ++ name ++ "' is already " ++ step.status.value ++ "."))
  else
    return { wf with steps := editStep name (WorkflowStep.begin now) wf.steps }

def completeStep (now : Int) (name : String) (wf : WorkflowRecord) : Except WorkflowError WorkflowRecord := do
  let _ ← requireStep name wf
  return maybeClose now { wf with steps := editStep name (WorkflowStep.complete now) wf.steps }

def failStep (now : Int) (name error : String) (skipsDependents : Bool) (wf : WorkflowRecord) :
    Except WorkflowError WorkflowRecord := do
  let _ ← requireStep name wf
  let steps := editStep name (WorkflowStep.fail now error) wf.steps
  let steps := if skipsDependents then skipDependents [name] steps else steps
  return { wf with steps, status := .failed, completedAt := some now }

def skipStep (now : Int) (name : String) (wf : WorkflowRecord) : Except WorkflowError WorkflowRecord := do
  let _ ← requireStep name wf
  return maybeClose now { wf with steps := editStep name (WorkflowStep.skip now) wf.steps }

def cancel (now : Int) (wf : WorkflowRecord) : WorkflowRecord :=
  { wf with steps := wf.steps.map WorkflowStep.abandon, status := .cancelled, completedAt := some now }

def pause (wf : WorkflowRecord) : WorkflowRecord :=
  { wf with steps := wf.steps.map WorkflowStep.requeue, status := .paused }

def resume (now : Int) (wf : WorkflowRecord) : Except WorkflowError WorkflowRecord :=
  if wf.status = .completed then .error (.valueError "Workflow already completed.")
  else if wf.status = .cancelled then .error (.valueError "Cannot resume a cancelled workflow.")
  else .ok { wf with steps := wf.steps.map WorkflowStep.requeue, status := .running, startedAt := wf.startedAt.or (some now) }

end WorkflowRecord

/-- The operations other than `run`. -/
inductive Operation where
  | start
  | beginStep (name : String)
  | completeStep (name : String)
  | failStep (name error : String) (skipsDependents : Bool)
  | skipStep (name : String)
  | cancel
  | pause
  | resume

def Operation.edit (now : Int) (wf : WorkflowRecord) : Operation → Except WorkflowError WorkflowRecord
  | .start => wf.start now
  | .beginStep name => wf.beginStep now name
  | .completeStep name => wf.completeStep now name
  | .failStep name error skipsDependents => wf.failStep now name error skipsDependents
  | .skipStep name => wf.skipStep now name
  | .cancel => .ok (wf.cancel now)
  | .pause => .ok wf.pause
  | .resume => wf.resume now

/-- How a handler ends: it returns and the callbacks with it, it raises, or the run ends with it
(a callback raises or the process dies), before its step is completed or after. -/
inductive Outcome where
  | returned
  | raised (error : String)
  | left (completed : Bool)

inductive Action where
  | call (op : Operation)
  | run
  | handled (outcome : Outcome)

structure Begun where
  name : String
  found : WorkflowRecord
  byRun : Bool
  deriving DecidableEq

def Operation.begins (found : WorkflowRecord) : Operation → List Begun
  | .beginStep name => [⟨name, found, false⟩]
  | _ => []

/-- The record on disk, the step whose handler `run` waits for, and every step begun so far. -/
structure Manager where
  record : WorkflowRecord
  handling : Option String := none
  begun : List Begun := []
  deriving DecidableEq

namespace Manager

/-- A refused operation leaves the record as it was. -/
def saved (state : Manager) (edited : Except WorkflowError WorkflowRecord) : Manager :=
  match edited with
  | .ok wf => { state with record := wf }
  | .error _ => state

/-- The head of the loop of `run`. -/
def proceed (now : Int) (state : Manager) : Manager :=
  match state.record.nextPendingStep with
  | none => { state with handling := none }
  | some step =>
    match state.record.beginStep now step.name with
    | .error _ => { state with handling := none }
    | .ok wf => ⟨wf, some step.name, state.begun ++ [⟨step.name, state.record, true⟩]⟩

/-- `run` up to its first handler. -/
def enter (now : Int) (state : Manager) : Manager :=
  match (if state.record.status ≠ .pending then state.record.resume now else state.record.start now) with
  | .error _ => state
  | .ok wf => { state with record := wf }.proceed now

def call (now : Int) (op : Operation) (state : Manager) : Manager :=
  match op.edit now state.record with
  | .error _ => state
  | .ok wf => { state with record := wf, begun := state.begun ++ op.begins state.record }

/-- What `run` does once the handler of a step has ended. -/
def handled (now : Int) (name : String) (outcome : Outcome) (state : Manager) : Manager :=
  match outcome with
  | .returned =>
    match state.record.completeStep now name with
    -- `fail_step` does not find the step either
    | .error _ => { state with handling := none }
    | .ok wf => { state with record := wf }.proceed now
  | .raised error => { state.saved (state.record.failStep now name error true) with handling := none }
  | .left true => { state.saved (state.record.completeStep now name) with handling := none }
  | .left false => { state with handling := none }

/-- One `run` at a time; handlers end only while one runs. -/
def act (state : Manager) (action : Int × Action) : Manager :=
  match action.2, state.handling with
  | .call op, _ => state.call action.1 op
  | .run, none => state.enter action.1
  | .run, some _ => state
  | .handled outcome, some name => state.handled action.1 name outcome
  | .handled _, none => state

end Manager

/-- A workflow as `create` leaves it. -/
structure Fresh (wf : WorkflowRecord) : Prop where
  status : wf.status = .pending
  steps : ∀ step ∈ wf.steps, step.status = .pending

def created (wf : WorkflowRecord) : Manager := { record := wf }

end TokenPak.Orchestration
