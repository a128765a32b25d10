import TokenPak.Library.Recovery
import TokenPak.SpendGuard.World

/-! The evaluation of one request, from the raw bytes to the tagged outcome. The
stages stand in reverse order of execution: each ends by handing over to a stage
defined before it, so every return point of the source is a leaf here. -/

namespace TokenPak.SpendGuard
open Library RollingCaps Policy

/-- The functions of the request text and of the model catalogue that the
orchestrator calls. They read no guard state. -/
structure Analysis where
  parseAndStripTipHeader : Bytes → Except Fault (Option (TIPDirective × Bytes))
  parseIntent : Bytes → Intent
  hasHumanText : Bytes → Bool
  approvalFingerprint : Bytes → String
  hashRequest : Bytes → String → String
  estimateAnchored : Bytes → String → String → Except Fault RiskEstimate
  getModelMaxContext : String → Except Fault (Option Int)

structure Request where
  body : Bytes
  model : String
  sessionId : String
  headers : Headers
  targetUrl : String := ""
  process : Nat := 0

def Request.approvalKey (request : Request) : ScopeKey :=
  scopeKey request.sessionId request.model request.headers

def syntheticDecision (hold : PendingRequest) : PreflightDecision :=
  ⟨.block, .antiLoopCache, true, some .antiLoop,
    ⟨hold.model, 0, 0, hold.projectedTokens, 0, hold.projectedCostUsd, 0⟩⟩

def heldResponse (hold : PendingRequest) : GuardOutcome :=
  { kind := .block, responseBody := some (hold.blockResponse.getD (.block (syntheticDecision hold) (some hold.summary)))
    httpStatus := 402, pendingId := some hold.pendingId, auditEvent := some .pendingWaiting }

def cancelledOutcome (hold : PendingRequest) : GuardOutcome :=
  { kind := .cancel, responseBody := some (.cancelled hold.summary), httpStatus := 200
    pendingId := some hold.pendingId, auditEvent := some .cancel }

def replayOutcome (consumed : PendingRequest) (ticket : Option String) : GuardOutcome :=
  { kind := .replay, body := some consumed.rawRequestBlob, headers := some consumed.rawRequestHeaders
    targetUrl := some consumed.targetUrl, pendingId := some consumed.pendingId, admissionTicket := ticket
    auditEvent := some .replay }

def failClosedOutcome (fault : Fault) : GuardOutcome :=
  { kind := .block, responseBody := some (.failClosed fault.name), httpStatus := 402
    auditEvent := some .failClosedInternalError }

/-- The dispatcher of `replay.py` for a reply to a held request. -/
def resolvePending (pending : PendingRequest) (intent : Intent) (tip : Option TIPDirective) :
    Guard GuardOutcome :=
  let replay : Guard GuardOutcome := do
    match ← call (.consume pending.pendingId) with
    | none => pure { kind := .block, responseBody := some (.pendingWaiting pending.summary), httpStatus := 402
                     pendingId := some pending.pendingId, auditEvent := some .replayRace }
    | some consumed => pure { replayOutcome consumed none with pendingId := some pending.pendingId }
  let tipAuthorizes := tip.any fun tip => tip.allowScope.isSome || tip.bypass
  if tipAuthorizes = true ∧ intent ≠ .negative then replay
  else match intent with
    | .positive => replay
    | .negative => do
      -- whether a row changed is not looked at
      let _ ← call (.discard pending.pendingId)
      pure (cancelledOutcome pending)
    | .ambiguous => pure { kind := .reprompt, responseBody := some (.reprompt pending.summary), httpStatus := 402
                           pendingId := some pending.pendingId, auditEvent := some .reprompt }

/-- What the stages before the estimate established. -/
structure Standing where
  tip : Option TIPDirective
  forwardBody : Bytes
  modified : Bool
  latePending : Option PendingRequest := none
  lateReplyHash : String := ""
  scopeReplay : Option PendingRequest := none
  earlierHoldExpired : Bool := false

section stages
variable (analysis : Analysis) (cfg : SpendGuardConfig) (request : Request)

/-- Nothing forwards, nothing spends: return the in-flight ticket. -/
def cancelAdmission (ticket : Option String) : Guard Unit :=
  match ticket with
  | none => pure ()
  | some ticket => do
    let _ ← tryCall (.settlePendingSpend request.process ticket)
    pure ()

def providerFromUrl (url : String) : String :=
  let mentions (name : String) : Bool := decide (name.toList <:+: url.toList)
  if url = "" then ""
  else if mentions "anthropic" then "anthropic"
  else if mentions "openai" || mentions "codex" then "openai"
  else if mentions "googleapis" || mentions "vertex" then "google"
  else "unknown"

def holdRequest (standing : Standing) (est : RiskEstimate) (decision : PreflightDecision) :
    Guard GuardOutcome := do
  match ← tryCall (.store
      { sessionId := request.sessionId, body := standing.forwardBody, headers := request.headers
        targetUrl := request.targetUrl, provider := providerFromUrl request.targetUrl, model := request.model
        requestHash := analysis.hashRequest standing.forwardBody request.model
        projectedTokens := est.projectedTokens, projectedCostUsd := est.projectedCostUsd
        ttlSeconds := cfg.pendingTtlSeconds, projectedInputTokens := some est.projectedInputTokens }) with
  | .error _ =>
    pure { kind := .block, responseBody := some (.blockStoreUnavailable decision), httpStatus := 402
           decision := some decision, auditEvent := some .block }
  | .ok pending =>
    let response : Response :=
      if standing.earlierHoldExpired then .earlierHoldExpired decision pending.summary
      else .block decision (some pending.summary)
    call (.rememberBlockResponse pending.pendingId response)
    pure { kind := .block, responseBody := some response, httpStatus := 402, decision := some decision
           pendingId := some pending.pendingId, auditEvent := some .block }

def refuse (standing : Standing) (est : RiskEstimate) (ticket : Option String)
    (decision : PreflightDecision) :
    Guard GuardOutcome := do
  cancelAdmission request ticket
  if decision.requiresApproval = false then
    pure { kind := .block, responseBody := some (.block decision none), httpStatus := 402, decision := some decision
           auditEvent := some .block }
  else match standing.scopeReplay with
    | some hold => pure (heldResponse hold)
    | none =>
      if request.sessionId = "" then
        pure { kind := .block, responseBody := some (.blockSessionIdentityUnavailable decision), httpStatus := 402
               decision := some decision, auditEvent := some .block }
      else holdRequest analysis cfg request standing est decision

def recordGrant (tip : Option TIPDirective) (est : RiskEstimate) : Guard Unit :=
  match tip with
  | none => pure ()
  | some tip => if request.sessionId = "" then pure () else call (.create request.approvalKey tip est)

/-- Consume the held bytes that are replayed, or forward the request itself. -/
def send (standing : Standing) (est : RiskEstimate) (ticket : Option String) (decision : PreflightDecision) :
    Guard GuardOutcome :=
  match standing.scopeReplay with
  | some hold => do
    match ← call (.consume hold.pendingId) with
    | none => do
      cancelAdmission request ticket
      pure (heldResponse hold)
    | some consumed => do
      recordGrant request standing.tip est
      pure (replayOutcome consumed ticket)
  | none => do
    recordGrant request standing.tip est
    pure { kind := if standing.modified then .forwardModified else .forward, body := some standing.forwardBody
           decision := some decision, admissionTicket := ticket }

/-- The verdict lets the request through. A late approval is consumed first. -/
def release (standing : Standing) (est : RiskEstimate) (ticket : Option String)
    (decision : PreflightDecision) :
    Guard GuardOutcome :=
  match standing.latePending with
  | none => send request standing est ticket decision
  | some late => do
    if ← call (.consumeExpired request.approvalKey late.pendingId standing.lateReplyHash) then
      send request standing est ticket decision
    else do
      cancelAdmission request ticket
      pure (heldResponse late)

def conclude (standing : Standing) (est : RiskEstimate) (ticket : Option String)
    (decision : PreflightDecision) :
    Guard GuardOutcome :=
  if standing.tip.any (·.estimateOnly) = true ∧ decision.decision ≠ .hardBlock then do
    cancelAdmission request ticket
    pure { kind := .estimate, responseBody := some (.estimateOnly est), httpStatus := 200, decision := some decision
           auditEvent := some .estimate }
  else match decision.decision with
    | .allow | .warn => release request standing est ticket decision
    | .hardBlock => do
      cancelAdmission request ticket
      pure { kind := .hardBlock, responseBody := some (.hardBlock decision), httpStatus := 402
             decision := some decision, auditEvent := some .hardBlock }
    | .block => refuse analysis cfg request standing est ticket decision

def Passes (decision : PreflightDecision) : Prop := decision.decision = .allow ∨ decision.decision = .warn

instance (decision : PreflightDecision) : Decidable (Passes decision) := inferInstanceAs (Decidable (_ ∨ _))

def maxContextOf : Option Int := (analysis.getModelMaxContext request.model).toOption.join

def verdict (standing : Standing) (est : RiskEstimate) (running : ℚ) : PreflightDecision :=
  decide est cfg standing.tip running (maxContextOf analysis request) standing.scopeReplay.isSome
    (standing.scopeReplay.isSome && standing.tip.all fun tip => !tip.persistent)

def verdictWithoutContext (est : RiskEstimate) (running : ℚ) : PreflightDecision :=
  decide est cfg none running (maxContextOf analysis request) true false

def sessionRunning : Guard ℚ :=
  if cfg.sessionBlockCostUsd > 0 then do
    match ← tryCall (.sessionCumulativeCost request.sessionId cfg.sessionWindowSeconds) with
    | .ok cost => pure cost
    | .error _ => pure 0
  else pure 0

/-- Decide, and let a stored grant stand in for a context-percent approval. -/
def judge (standing : Standing) (est : RiskEstimate) (ticket : Option String) : Guard GuardOutcome := do
  let running ← sessionRunning cfg request
  let decision := verdict analysis cfg request standing est running
  if standing.earlierHoldExpired = true ∧ (Passes decision ∨ decision.requiresApproval = true) then
    conclude analysis cfg request standing est ticket ⟨.block, .earlierHoldExpired, true, none, est⟩
  else if decision.reason = .projectedExceedsContextWindowPercent ∧ request.sessionId ≠ "" then
    let withoutContext := verdictWithoutContext analysis cfg request est running
    if Passes withoutContext then do
      if ← call (.redeem request.approvalKey est) then
        conclude analysis cfg request standing est ticket withoutContext
      else conclude analysis cfg request standing est ticket decision
    else conclude analysis cfg request standing est ticket decision
  else conclude analysis cfg request standing est ticket decision

def agentId (headers : Headers) : String :=
  ((headers.find? fun header => Text.lower header.1 = "x-tokenpak-agent").map
    fun header => Text.lower (Text.strip header.2)).getD ""

def admissionOf (est : RiskEstimate) : Admission :=
  { agentId := agentId request.headers, projectedCostUsd := est.projectedCostUsd
    projectedInputTokens := est.projectedInputTokens, projectedOutputTokens := est.projectedOutputTokens
    projectedCacheReadTokens := truncate (est.projectedInputTokens * est.cacheHitRatio)
    config :=
      { enabled := cfg.rollingCapsEnabled, windowSeconds := cfg.rollingCapsWindowSeconds
        perAgentMaxCostUsd := cfg.rollingCapsPerAgentMaxCostUsd
        perAgentMaxTokensTotal := cfg.rollingCapsPerAgentMaxTokensTotal
        perAgentMaxCacheReadTokens := cfg.rollingCapsPerAgentMaxCacheReadTokens
        perFleetMaxCostUsd := cfg.rollingCapsPerFleetMaxCostUsd
        perFleetMaxTokensTotal := cfg.rollingCapsPerFleetMaxTokensTotal
        perFleetMaxCacheReadTokens := cfg.rollingCapsPerFleetMaxCacheReadTokens } }

/-- Rolling caps. An exception of the wiring itself is logged and the request
goes on to the policy without a ticket. -/
def admitStage (standing : Standing) (est : RiskEstimate) : Guard GuardOutcome := do
  let agent := agentId request.headers
  let recorded ← if agent ≠ "" ∧
    request.sessionId ≠ "" then tryCall (.recordSessionAgent request.sessionId agent)
    else pure (.ok ())
  match recorded with
  | .error _ => judge analysis cfg request standing est none
  | .ok _ =>
    if cfg.rollingCapsEnabled = true ∧ agent ≠ "" then do
      match ← tryCall (.checkRollingCapsAndAdmit request.process (admissionOf cfg request est)) with
      | .error _ => judge analysis cfg request standing est none
      | .ok (some breach, _) =>
        pure { kind := .block, responseBody := some (.rollingCapBlock breach), httpStatus := 402
               decision := some ⟨.block, .rollingCapBreach breach.capDimension, false, none, est⟩
               auditEvent := some .rollingCapBlock }
      | .ok (none, ticket) => judge analysis cfg request standing est ticket
    else judge analysis cfg request standing est none

/-- A late approval carries over only to a request that has not outgrown the
expired hold by a tenth of the context window. -/
def WithinGrowth (late : PendingRequest) (est : RiskEstimate) (window : Option Int) : Prop :=
  ∃ size ∈ window, size ≠ 0 ∧
    (est.projectedInputTokens : ℚ) ≤ late.projectedInputTokens.getD late.projectedTokens + size / 10

instance (late : PendingRequest) (est : RiskEstimate) (window : Option Int) :
    Decidable (WithinGrowth late est window) :=
  inferInstanceAs (Decidable (∃ _ ∈ _, _))

def estimateStage (standing : Standing) : Guard GuardOutcome :=
  match analysis.estimateAnchored standing.forwardBody request.model request.sessionId with
  | .error fault => pure (failClosedOutcome fault)
  | .ok est =>
    match standing.latePending with
    | none => admitStage analysis cfg request standing est
    | some late =>
      match analysis.getModelMaxContext request.model with
      | .error fault => throw fault
      | .ok window =>
        if WithinGrowth late est window then
          admitStage analysis cfg request { standing with tip := some (standing.tip.getD { allowScope := some .once }) } est
        else do
          call (.rememberReply request.approvalKey standing.lateReplyHash)
          admitStage analysis cfg request { standing with tip := none, earlierHoldExpired := true } est

/-- A request blocked moments ago gets the same answer without a new estimate. -/
def antiLoop (standing : Standing) : Guard GuardOutcome := do
  match ← call (.recentBlockByHash (analysis.hashRequest standing.forwardBody request.model) (seconds 30)
      request.sessionId) with
  | none => estimateStage analysis cfg request standing
  | some recent =>
    if recent.status = .consumed then estimateStage analysis cfg request standing
    else do
      let now ← call .now
      if recent.expiresAt > now ∧
          scopeKey request.sessionId recent.model recent.rawRequestHeaders = request.approvalKey ∧
          standing.tip = none ∧ standing.latePending = none ∧ standing.scopeReplay = none then
        pure { kind := .block, responseBody := some (.block (syntheticDecision recent) (some recent.summary))
               httpStatus := 402, pendingId := some recent.pendingId, auditEvent := some .antiLoopHit }
      else estimateStage analysis cfg request standing

/-- An expired hold without a usable approval: discarded, and cancelled when the
reply says no. A new human request is then evaluated on its own. -/
def supersede (standing : Standing) (hold : PendingRequest) (intent : Intent) : Guard GuardOutcome := do
  let _ ← call (.discard hold.pendingId)
  if intent = .negative then do
    call (.revoke request.approvalKey)
    pure (cancelledOutcome hold)
  else antiLoop analysis cfg request standing

/-- The reply approves: by its text or by its directive, unless the text refuses. -/
def approves (tip : Option TIPDirective) (intent : Intent) : Bool :=
  intent = .positive || (tip.any (fun tip => tip.allowScope.isSome || tip.bypass) && intent ≠ .negative)

def resolveHold (standing : Standing) (hold : PendingRequest) : Guard GuardOutcome :=
  let intent := analysis.parseIntent standing.forwardBody
  if analysis.hasHumanText standing.forwardBody = false ∧ standing.tip = none then pure (heldResponse hold)
  else do
    let replyHash := analysis.approvalFingerprint standing.forwardBody
    let now ← call .now
    let expired := decide (hold.expiresAt ≤ now)
    if approves standing.tip intent then do
      if ← call (.replyUsed request.approvalKey replyHash) then
        -- a used reply authorizes nothing, but it must not pin an expired hold
        if expired then supersede analysis cfg request { standing with tip := none } hold intent
        else pure (heldResponse hold)
      else if expired then
        antiLoop analysis cfg request { standing with latePending := some hold, lateReplyHash := replyHash }
      else
        antiLoop analysis cfg request { standing with forwardBody := hold.rawRequestBlob, scopeReplay := some hold }
    else if expired then supersede analysis cfg request standing hold intent
    else do
      let outcome ← resolvePending hold intent standing.tip
      if outcome.kind = .cancel then call (.revoke request.approvalKey)
      pure outcome

/-- Best-effort sweep of stale rows, at most once per interval and process. -/
def maybeExpirePending : Guard Unit := do
  if ← call (.claimSweep request.process) then
    let _ ← tryCall .expireOld
    pure ()

/-- Find the hold of this scope. A refusal also reaches a hold without caller scope. -/
def findHold (standing : Standing) : Guard (Option PendingRequest) := do
  match ← call (.latestHold request.sessionId request.model request.headers) with
  | some hold => pure (some hold)
  | none =>
    if analysis.parseIntent standing.forwardBody = .negative then
      call (.latestHold request.sessionId request.model [])
    else pure none

def pendingCheck (standing : Standing) : Guard GuardOutcome := do
  maybeExpirePending request
  let existing ← findHold analysis request standing
  call (.discardExpired request.sessionId (existing.elim "" PendingRequest.pendingId))
  call .openApprovals
  match existing with
  | none => antiLoop analysis cfg request standing
  | some hold => resolveHold analysis cfg request standing hold

/-- `[TIP: cancel]`: revoke, discard the hold of this scope and acknowledge. With
nothing to cancel the stripped request is forwarded. -/
def tipCancel (forwardBody : Bytes) : Guard GuardOutcome := do
  call .openApprovals
  call (.revoke request.approvalKey)
  let inScope ← call (.latestHold request.sessionId request.model request.headers)
  let existing ← match inScope with
    | some hold => pure (some hold)
    | none => call (.latestHold request.sessionId request.model [])
  call (.discardExpired request.sessionId (existing.elim "" PendingRequest.pendingId))
  match existing with
  | some hold => do
    let _ ← call (.discard hold.pendingId)
    pure (cancelledOutcome hold)
  | none => pure { kind := .forwardModified, body := some forwardBody }

/-- The directive and the stripped body; a body that cannot be parsed has none. -/
def directiveOf (body : Bytes) : Option (TIPDirective × Bytes) :=
  (analysis.parseAndStripTipHeader body).toOption.join

def evaluate : Guard GuardOutcome :=
  if cfg.enabled = false then pure (.passthrough request.body)
  else match directiveOf analysis request.body with
    | none => pendingCheck analysis cfg request { tip := none, forwardBody := request.body, modified := false }
    | some (tip, forwardBody) =>
      if tip.cancel then tipCancel request forwardBody
      else pendingCheck analysis cfg request { tip := some tip, forwardBody, modified := true }

end stages

/-- One call of the orchestrator, with the configuration and the analysis of its process. -/
structure Evaluation where
  analysis : Analysis
  cfg : SpendGuardConfig
  request : Request

def Evaluation.program (call : Evaluation) : Guard GuardOutcome :=
  evaluate call.analysis call.cfg call.request

abbrev GuardPool (Thread : Type) := Pool Thread World Op Reply (Except Fault GuardOutcome)

inductive GuardCall where
  | evaluate (call : Evaluation)
  | resolvePending (pending : PendingRequest) (intent : Intent) (tip : Option TIPDirective)

def GuardCall.program : GuardCall → Guard GuardOutcome
  | .evaluate call => call.program
  | .resolvePending pending intent tip => SpendGuard.resolvePending pending intent tip

def evaluations {Thread : Type} (world : World) (calls : Thread → Evaluation) : GuardPool Thread :=
  .init world fun thread => (calls thread).program

/-- One evaluation, with nobody else at the stores. -/
def single (analysis : Analysis) (cfg : SpendGuardConfig) (request : Request) (world : World) :
    GuardPool Unit :=
  evaluations world fun _ => ⟨analysis, cfg, request⟩

end TokenPak.SpendGuard
