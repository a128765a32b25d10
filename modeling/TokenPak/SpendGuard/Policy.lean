import Mathlib.Data.Rat.Floor
import TokenPak.SpendGuard.Contracts

/-! The threshold policy: one verdict for one estimate. The hard bands are a
definition of their own because they come first and read neither the directive
nor any approval. -/

namespace TokenPak.SpendGuard

structure SpendGuardConfig where
  enabled : Bool := true
  defaultContextWindowPercent : Int := 90
  hardStopContextWindowPercent : Int := 100
  warnTokens : Int := 100000
  warnCostUsd : ℚ := 2
  blockTokens : Int := 500000
  hardBlockTokens : Int := 1000000
  blockCostUsd : ℚ := 0
  hardBlockCostUsd : ℚ := 0
  sessionBlockCostUsd : ℚ := 0
  sessionWindowSeconds : Int := 3600
  pendingTtlSeconds : Int := 600
  rollingCapsEnabled : Bool := true
  rollingCapsWindowSeconds : Int := 3600
  rollingCapsPerAgentMaxCostUsd : ℚ := 20
  rollingCapsPerAgentMaxTokensTotal : Int := 5000000
  rollingCapsPerAgentMaxCacheReadTokens : Int := 0
  rollingCapsPerFleetMaxCostUsd : ℚ := 60
  rollingCapsPerFleetMaxTokensTotal : Int := 15000000
  rollingCapsPerFleetMaxCacheReadTokens : Int := 0
  deriving DecidableEq

namespace Policy

/-- `int(...)` of a number: truncation toward zero. -/
def truncate (q : ℚ) : Int := if 0 ≤ q then ⌊q⌋ else ⌈q⌉

def defaultBlockRatio : ℚ := 4 / 5

def known (modelMaxContextTokens : Option Int) : Option Int := modelMaxContextTokens.filter (0 < ·)

def deriveBlockThreshold (modelMaxContextTokens : Option Int) (ratio : ℚ)
    (fallbackTokens : Option Int) : Option Int :=
  if ratio ≤ 0 ∨ ratio > 1 then fallbackTokens
  else match known modelMaxContextTokens with
    | none => fallbackTokens
    | some context => some (min (truncate (context * ratio)) context)

def percentTokens (percent : Int) (modelMaxContextTokens : Option Int) : Option Int :=
  (known modelMaxContextTokens).map fun context => truncate (context * percent / 100)

/-- Steps 1 and 2: the bands that nothing releases. -/
def hardBand (estimate : RiskEstimate) (cfg : SpendGuardConfig) (modelMaxContextTokens : Option Int) :
    Option PreflightDecision :=
  let pctHardStopTokens := percentTokens cfg.hardStopContextWindowPercent modelMaxContextTokens
  if ∃ limit ∈ pctHardStopTokens, limit ≤ estimate.projectedInputTokens then
    some ⟨.hardBlock, .projectedExceedsContextWindowHardStop, false,
      some (.hardStopContextWindowPercent cfg.hardStopContextWindowPercent (modelMaxContextTokens.getD 0)
        estimate.projectedInputTokens), estimate⟩
  else if cfg.hardBlockCostUsd > 0 ∧ estimate.projectedCostUsd ≥ cfg.hardBlockCostUsd then
    some ⟨.hardBlock, .projectedCostExceedsHardBlock, false,
      some (.hardBlockCostUsd cfg.hardBlockCostUsd), estimate⟩
  else if pctHardStopTokens = none ∧ cfg.hardBlockTokens > 0 ∧
      estimate.projectedTokens ≥ cfg.hardBlockTokens then
    some ⟨.hardBlock, .projectedTokensExceedHardBlock, false,
      some (.hardBlockTokens cfg.hardBlockTokens), estimate⟩
  else none

def sessionBand (estimate : RiskEstimate) (cfg : SpendGuardConfig) (sessionRunningCostUsd : ℚ) :
    Option PreflightDecision :=
  if cfg.sessionBlockCostUsd > 0 ∧
      sessionRunningCostUsd + estimate.projectedCostUsd ≥ cfg.sessionBlockCostUsd then
    some ⟨.block, .sessionCumulativeCostExceeded, false,
      some (.sessionBlockCostUsd cfg.sessionBlockCostUsd sessionRunningCostUsd), estimate⟩
  else none

/-- A directive that authorizes or bounds the request. -/
def contextScope (tip : Option TIPDirective) : Bool :=
  tip.any fun tip => tip.bypass || tip.allowScope.isSome || tip.maxCostUsd.isSome || tip.maxTokens.isSome

def withinCeiling (estimate : RiskEstimate) (tip : TIPDirective) : Prop :=
  (∀ limit ∈ tip.maxCostUsd, estimate.projectedCostUsd ≤ limit) ∧
    ∀ limit ∈ tip.maxTokens, estimate.projectedTokens ≤ limit

instance (estimate : RiskEstimate) (tip : TIPDirective) : Decidable (withinCeiling estimate tip) :=
  inferInstanceAs (Decidable (_ ∧ _))

def tipBand (estimate : RiskEstimate) (tip : Option TIPDirective) : Option PreflightDecision :=
  if contextScope tip = true ∧ ¬∀ directive ∈ tip, withinCeiling estimate directive then
    some ⟨.block, .projectedExceedsTipCeiling, true, some .tipCeiling, estimate⟩
  else none

/-- A one-request approval carried by the directive itself. -/
def tipReleasesSoftBands (tip : Option TIPDirective) : Bool :=
  contextScope tip && tip.any fun tip =>
    !tip.persistent && !(tip.bypass && tip.maxCostUsd.isNone && tip.maxTokens.isNone)

/-- Steps 4, 5b and 5c: the bands an approval releases. -/
def softBand (estimate : RiskEstimate) (cfg : SpendGuardConfig) (modelMaxContextTokens : Option Int)
    (contextApproved requestSoftApproved : Bool) : Option PreflightDecision :=
  let pctBlockTokens := percentTokens cfg.defaultContextWindowPercent modelMaxContextTokens
  let derived := deriveBlockThreshold modelMaxContextTokens defaultBlockRatio (some cfg.blockTokens)
  let effectiveBlockTokens := (derived.map (min · cfg.hardBlockTokens)).getD cfg.hardBlockTokens
  let thresholdSource := match derived, known modelMaxContextTokens with
    | none, _ => ThresholdSource.blockTokensUnresolved
    | some _, some _ => .blockTokensDynamic
    | some _, none => .blockTokensFallback
  if (∃ limit ∈ pctBlockTokens, limit ≤ estimate.projectedInputTokens) ∧
      (contextApproved || requestSoftApproved) = false then
    some ⟨.block, .projectedExceedsContextWindowPercent, true,
      some (.defaultContextWindowPercent cfg.defaultContextWindowPercent (modelMaxContextTokens.getD 0)
        estimate.projectedInputTokens), estimate⟩
  else if cfg.blockCostUsd > 0 ∧ estimate.projectedCostUsd ≥ cfg.blockCostUsd ∧
      requestSoftApproved = false then
    some ⟨.block, .projectedCostExceeded, true, some (.blockCostUsd cfg.blockCostUsd), estimate⟩
  else if pctBlockTokens = none ∧ estimate.projectedTokens ≥ effectiveBlockTokens ∧
      requestSoftApproved = false then
    some ⟨.block, .projectedTokensExceeded, true,
      some (.blockTokens thresholdSource effectiveBlockTokens (modelMaxContextTokens.filter (· ≠ 0))), estimate⟩
  else none

def passing (estimate : RiskEstimate) (cfg : SpendGuardConfig) (tip : Option TIPDirective) :
    PreflightDecision :=
  if contextScope tip then ⟨.allow, .tipBypassWithinCeiling, false, some .tipDirective, estimate⟩
  else if (cfg.warnCostUsd > 0 ∧ estimate.projectedCostUsd ≥ cfg.warnCostUsd) ∨
      estimate.projectedTokens ≥ cfg.warnTokens then
    ⟨.warn, .projectedInWarnBand, false, some .warnBand, estimate⟩
  else ⟨.allow, .underThresholds, false, none, estimate⟩

/-- The first band that stops the request, in the order of the policy. -/
def decide (estimate : RiskEstimate) (cfg : SpendGuardConfig) (tip : Option TIPDirective)
    (sessionRunningCostUsd : ℚ) (modelMaxContextTokens : Option Int)
    (contextSoftApproved requestSoftApproved : Bool) : PreflightDecision :=
  let released := requestSoftApproved || tipReleasesSoftBands tip
  (hardBand estimate cfg modelMaxContextTokens).getD <|
    (sessionBand estimate cfg sessionRunningCostUsd).getD <|
      (tipBand estimate tip).getD <|
        (softBand estimate cfg modelMaxContextTokens (contextScope tip ||
          contextSoftApproved) released).getD <|
          passing estimate cfg tip

end Policy
end TokenPak.SpendGuard
