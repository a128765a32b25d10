import Mathlib.Data.Rat.Defs
import TokenPak.Library.Text

/-! The typed surface of the spend guard: estimates, verdicts, held requests,
directives and the tagged outcome of one evaluation. Times are microseconds,
costs exact rationals. Response bodies are kept as the builder that makes them
with the data it reads. -/

namespace TokenPak.SpendGuard

abbrev Bytes := List UInt8
abbrev Headers := List (String × String)

abbrev Time := Int

def seconds (n : Int) : Time := n * 1000000

structure RiskEstimate where
  model : String
  currentContextTokens : Int
  requestTokens : Int
  projectedInputTokens : Int
  projectedOutputTokens : Int
  projectedCostUsd : ℚ
  cacheHitRatio : ℚ
  deriving DecidableEq

def RiskEstimate.projectedTokens (risk : RiskEstimate) : Int :=
  risk.projectedInputTokens + risk.projectedOutputTokens

inductive DecisionKind where
  | allow | warn | block | hardBlock
  deriving DecidableEq

inductive CapDimension where
  | perAgentCostUsd | perAgentTokensTotal | perAgentCacheReadTokens
  | perFleetCostUsd | perFleetTokensTotal | perFleetCacheReadTokens
  | unmeasurable
  deriving DecidableEq

inductive Reason where
  | projectedExceedsContextWindowHardStop
  | projectedCostExceedsHardBlock
  | projectedTokensExceedHardBlock
  | sessionCumulativeCostExceeded
  | projectedExceedsTipCeiling
  | projectedExceedsContextWindowPercent
  | projectedCostExceeded
  | projectedTokensExceeded
  | tipBypassWithinCeiling
  | projectedInWarnBand
  | underThresholds
  | earlierHoldExpired
  | antiLoopCache
  | rollingCapBreach (dimension : CapDimension)
  deriving DecidableEq

inductive ThresholdSource where
  | blockTokensUnresolved | blockTokensDynamic | blockTokensFallback
  deriving DecidableEq

inductive ThresholdHit where
  | hardStopContextWindowPercent (percent maxContext projectedInput : Int)
  | hardBlockCostUsd (limit : ℚ)
  | hardBlockTokens (limit : Int)
  | sessionBlockCostUsd (limit running : ℚ)
  | tipCeiling
  | defaultContextWindowPercent (percent maxContext projectedInput : Int)
  | blockCostUsd (limit : ℚ)
  | blockTokens (source : ThresholdSource) (limit : Int) (maxContext : Option Int)
  | tipDirective
  | warnBand
  | antiLoop
  deriving DecidableEq

structure PreflightDecision where
  decision : DecisionKind
  reason : Reason
  requiresApproval : Bool
  thresholdHit : Option ThresholdHit
  risk : RiskEstimate
  deriving DecidableEq

structure CapBreach where
  capDimension : CapDimension
  agentId : String
  windowSeconds : Int
  used : ℚ
  cap : ℚ
  projectedAdd : ℚ
  retryAfterSeconds : Int
  deriving DecidableEq

/-- What a response builder reads of a held request. -/
structure HoldSummary where
  pendingId : String
  expiresAt : Time
  projectedTokens : Int
  projectedCostUsd : ℚ
  deriving DecidableEq

/-- The bodies returned to the client, by builder. -/
inductive Response where
  | block (decision : PreflightDecision) (hold : Option HoldSummary)
  | earlierHoldExpired (decision : PreflightDecision) (hold : HoldSummary)
  | hardBlock (decision : PreflightDecision)
  | blockStoreUnavailable (decision : PreflightDecision)
  | blockSessionIdentityUnavailable (decision : PreflightDecision)
  | pendingWaiting (hold : HoldSummary)
  | cancelled (hold : HoldSummary)
  | reprompt (hold : HoldSummary)
  | estimateOnly (risk : RiskEstimate)
  | rollingCapBlock (breach : CapBreach)
  | failClosed (error : String)
  | stateBusy (error : String) (retries : Nat)
  deriving DecidableEq

inductive HoldStatus where
  | pending | consumed | discarded | expired
  deriving DecidableEq

structure PendingRequest where
  pendingId : String
  sessionId : String
  createdAt : Time
  expiresAt : Time
  requestHash : String
  provider : String
  model : String
  projectedTokens : Int
  projectedCostUsd : ℚ
  rawRequestBlob : Bytes
  rawRequestHeaders : Headers
  targetUrl : String
  status : HoldStatus
  projectedInputTokens : Option Int
  blockResponse : Option Response
  deriving DecidableEq

def PendingRequest.summary (hold : PendingRequest) : HoldSummary :=
  ⟨hold.pendingId, hold.expiresAt, hold.projectedTokens, hold.projectedCostUsd⟩

inductive AllowScope where
  | once | fifteenMinutes | session
  deriving DecidableEq

structure TIPDirective where
  allowScope : Option AllowScope := none
  bypass : Bool := false
  maxCostUsd : Option ℚ := none
  maxTokens : Option Int := none
  estimateOnly : Bool := false
  cancel : Bool := false
  deriving DecidableEq

def TIPDirective.persistent (tip : TIPDirective) : Bool :=
  tip.allowScope = some .fifteenMinutes || tip.allowScope = some .session

inductive Intent where
  | positive | negative | ambiguous
  deriving DecidableEq

inductive OutcomeKind where
  | forward | forwardModified | block | hardBlock | replay | estimate | cancel | reprompt
  deriving DecidableEq

/-- The kinds on which the proxy writes `body` upstream. -/
def OutcomeKind.sends : OutcomeKind → Bool
  | .forward | .forwardModified | .replay => true
  | _ => false

inductive AuditEvent where
  | pendingWaiting | cancel | antiLoopHit | rollingCapBlock | estimate | replay | replayRace | hardBlock | block
  | reprompt | failClosedInternalError | failClosedStateBusy
  deriving DecidableEq

structure GuardOutcome where
  kind : OutcomeKind
  body : Option Bytes := none
  headers : Option Headers := none
  targetUrl : Option String := none
  responseBody : Option Response := none
  httpStatus : Nat := 200
  decision : Option PreflightDecision := none
  pendingId : Option String := none
  auditEvent : Option AuditEvent := none
  admissionTicket : Option String := none
  deriving DecidableEq

def GuardOutcome.passthrough (body : Bytes) : GuardOutcome := { kind := .forward, body := some body }

/-- An exception raised by an operation: the name of its class and its text. -/
structure Fault where
  name : String
  message : String
  deriving DecidableEq

end TokenPak.SpendGuard
