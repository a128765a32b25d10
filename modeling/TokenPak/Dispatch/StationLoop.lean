import TokenPak.Dispatch.Patch
import TokenPak.Library.Recovery

/-! The bounded loop of one station. The worker takes turns and asks for tools; the policy bounds
the turns, the tool calls and the time. What the worker, the tools, the spend guard and the user do
is an answer of the world; an operation that raises gets none, and the run stops there. -/

namespace TokenPak.Dispatch.StationRunner
open Library Patch

structure StationLoopPolicy where
  maxIterations : Int
  maxToolCalls : Int
  maxWallSeconds : Int
  deriving DecidableEq

inductive LoopStopCondition where
  | outputSchemaValidAndNoPendingToolRequests | loopBudgetExhausted | cancelRequested | toolPolicyViolation | fatalError
  deriving DecidableEq

structure LoopState where
  iterationCount : Nat
  toolCallCount : Nat
  wallSeconds : Int
  outputSchemaValid : Bool
  pendingToolRequests : Bool
  cancelRequested : Bool
  toolPolicyViolation : Bool
  fatalError : Bool

structure LoopOutcome where
  stopCondition : Option LoopStopCondition
  exhausted : Bool
  producedValidOutput : Bool
  deriving DecidableEq

/-- `evaluate_stop` -/
def evaluateStop (state : LoopState) (policy : StationLoopPolicy) : LoopOutcome :=
  if state.cancelRequested then ⟨some .cancelRequested, false, state.outputSchemaValid⟩
  else if state.fatalError then ⟨some .fatalError, false, state.outputSchemaValid⟩
  else if state.toolPolicyViolation then ⟨some .toolPolicyViolation, false, state.outputSchemaValid⟩
  else if state.outputSchemaValid ∧ ¬ state.pendingToolRequests then
    ⟨some .outputSchemaValidAndNoPendingToolRequests, false, true⟩
  else if state.iterationCount ≥ policy.maxIterations ∨ state.toolCallCount ≥ policy.maxToolCalls
      ∨ state.wallSeconds ≥ policy.maxWallSeconds then ⟨some .loopBudgetExhausted, true,
        state.outputSchemaValid⟩
  else ⟨none, false, state.outputSchemaValid⟩

def coerceTool : String → Option ToolName
  | "read_context" => some .readContext
  | "write_artifact" => some .writeArtifact
  | "propose_patch" => some .proposePatch
  | "apply_patch" => some .applyPatch
  | "run_command" => some .runCommand
  | _ => none

structure WorkerToolRequest (Args : Type) where
  tool : String
  args : Args

structure WorkerTurn (Args Payload : Type) where
  toolRequests : List (WorkerToolRequest Args)
  resultPayload : Option Payload
  outputSchemaValid : Bool
  fatalError : Bool
  tokensUsed : Int
  wallSeconds : Int

inductive StationOp (Args Output : Type) where
  | isCancelled
  | spendGuard
  | runTurn (priorToolOutputs : List Output) (iteration : Nat)
  | toolRunner (request : WorkerToolRequest Args)

section Loop
variable {Args Payload Output : Type}

abbrev StationReply (Payload : Type) : StationOp Args Output → Type
  | .isCancelled => Bool
  | .spendGuard => Int
  | .runTurn .. => WorkerTurn Args Payload
  | .toolRunner _ => Output

abbrev StationProgram (Args Payload Output : Type) := Program (StationOp Args Output) (StationReply Payload)

def ask (op : StationOp Args Output) :
    StationProgram Args Payload Output (StationReply Payload op) :=
  Program.ask op

structure ToolCalls (Output : Type) where
  count : Nat
  effectIds : List String
  outputs : List Output

structure Progress (Payload Output : Type) where
  iteration : Nat
  tools : ToolCalls Output
  wallSeconds : Int
  tipRequestIds : List String
  resultPayload : Option Payload

def Progress.initial : Progress Payload Output := ⟨0, ⟨0, [], []⟩, 0, [], none⟩

/-- The end of a run. A turn that came after a cancellation leaves a late result with the payload it had. -/
structure StationRunOutcome (Payload Output : Type) where
  status : StationRunStatus
  stopCondition : LoopStopCondition
  progress : Progress Payload Output
  lateResult : Option (Option Payload)
  failureReason : Option String

structure Station (Output : Type) where
  runId : String
  stationRunId : String
  policy : StationLoopPolicy
  mode : AutonomyMode
  approvalGranted : Bool
  effectIdOf : Output → Option String

variable (station : Station Output)

/-- How the tools of a turn end: all were called, one was refused, or the name of one is unknown. -/
inductive ToolsEnd where
  | called | violation | unknown
  deriving DecidableEq

def callTools (tools : ToolCalls Output) :
    List (WorkerToolRequest Args) → StationProgram Args Payload Output (ToolsEnd × ToolCalls Output)
  | [] => pure (.called, tools)
  | request :: requests =>
    match coerceTool request.tool with
    | none => pure (.unknown, tools)
    | some tool =>
      match authorizeToolCall tool station.mode station.approvalGranted with
      | .error _ => pure (.violation, tools)
      | .ok _ => do
        let output ← ask (.toolRunner request)
        callTools ⟨tools.count + 1, tools.effectIds ++ (station.effectIdOf output).toList,
          tools.outputs ++ [output]⟩ requests

/-- The stop conditions after a turn whose tools were called. -/
def stateOf (progress : Progress Payload Output) : LoopState where
  iterationCount := progress.iteration
  toolCallCount := progress.tools.count
  wallSeconds := progress.wallSeconds
  outputSchemaValid := progress.resultPayload.isSome
  pendingToolRequests := false
  cancelRequested := false
  toolPolicyViolation := false
  fatalError := false

theorem lt_of_continues {state : LoopState} {policy : StationLoopPolicy}
    (continues : (evaluateStop state policy).stopCondition = none) :
    (state.iterationCount : Int) < policy.maxIterations ∧
      (state.toolCallCount : Int) < policy.maxToolCalls := by
  unfold evaluateStop at continues
  repeat' split at continues
  next => cases continues
  next => cases continues
  next => cases continues
  next => cases continues
  next => cases continues
  next within => omega

/-- `_commit_terminal`: only a completed run has a payload. -/
def commitTerminal (status : StationRunStatus) (stopCondition : LoopStopCondition)
    (progress : Progress Payload Output)
    (lateResult : Option (Option Payload)) (failureReason : Option String) :
    StationRunOutcome Payload Output where
  status := status
  stopCondition := stopCondition
  progress := { progress with resultPayload := if status = .completed then progress.resultPayload else none }
  lateResult := lateResult
  failureReason := if status = .failed then failureReason else none

/-- How one round of the loop ends. The loop goes on with one turn more, while turns and tool calls
are left. -/
inductive Round (policy : StationLoopPolicy) (iteration : Nat) (Payload Output : Type) where
  | ended (outcome : StationRunOutcome Payload Output)
  | raised
  | continued (next : Progress Payload Output) (turn : next.iteration = iteration + 1)
      (left : (next.iteration : Int) < policy.maxIterations ∧ (next.tools.count : Int) < policy.maxToolCalls)

/-- The tools of a turn and the stop conditions behind them. -/
def finishTurn (before : Nat) (taken : Progress Payload Output)
    (one_more : taken.iteration = before + 1) (turn : WorkerTurn Args Payload) :
    StationProgram Args Payload Output (Round station.policy before Payload Output) := do
  let (ended, tools) ← callTools station taken.tools turn.toolRequests
  match ended with
  | .unknown => return .raised
  | .violation => return .ended (commitTerminal .failed .toolPolicyViolation { taken with tools := tools } none none)
  | .called =>
    let next := { taken with
      tools := tools
      resultPayload := if turn.outputSchemaValid then turn.resultPayload.or taken.resultPayload else taken.resultPayload }
    match continues : (evaluateStop (stateOf next) station.policy).stopCondition with
    | some condition =>
      let status :=
        if condition = .outputSchemaValidAndNoPendingToolRequests then StationRunStatus.completed
          else .failed
      return .ended (commitTerminal status condition next none none)
    | none => return .continued next one_more (lt_of_continues continues)

def round (progress : Progress Payload Output) : StationProgram Args Payload Output (Round station.policy progress.iteration Payload Output) := do
  if ← ask .isCancelled then return .ended (commitTerminal .cancelled .cancelRequested progress none none)
  if (← ask .spendGuard) ≤ 0 then return .ended (commitTerminal .failed .fatalError progress none (some "spend_guard_exceeded"))
  let iteration := progress.iteration + 1
  let turn ← ask (.runTurn progress.tools.outputs iteration)
  let taken : Progress Payload Output := { progress with
    iteration := iteration
    tipRequestIds :=
      progress.tipRequestIds ++ ["tip_" ++ station.runId ++ "_" ++ station.stationRunId ++ "_" ++
        toString iteration]
    wallSeconds := progress.wallSeconds + max 0 turn.wallSeconds }
  if ← ask .isCancelled then return .ended (commitTerminal .cancelled .cancelRequested taken (some turn.resultPayload) none)
  if turn.fatalError then return .ended (commitTerminal .failed .fatalError taken none none)
  finishTurn station progress.iteration taken rfl turn

theorem fewer_left {limit : Int} {before after : Nat} (turn : after = before + 1)
    (left : (after : Int) < limit) :
    (limit - after).toNat < (limit - before).toNat := by
  omega

/-- `_run_loop`; none stands for a raised exception. -/
def runLoop (progress : Progress Payload Output) :
    StationProgram Args Payload Output (Option (StationRunOutcome Payload Output)) :=
  (round station progress).bind fun
    | .ended outcome => .done (some outcome)
    | .raised => .done none
    | .continued next _ _ => runLoop next
termination_by (station.policy.maxIterations - progress.iteration).toNat
decreasing_by exact fewer_left ‹_› (And.left ‹_›)

/-- `run`: a station that is cancelled before it starts has no turn. -/
def run : StationProgram Args Payload Output (Option (StationRunOutcome Payload Output)) := do
  if ← ask .isCancelled then return some (commitTerminal .cancelled .cancelRequested Progress.initial none none)
  runLoop station Progress.initial

end Loop
end TokenPak.Dispatch.StationRunner
