import Mathlib.Data.List.Infix
import TokenPak.Core.SessionEconomics
import TokenPak.SpendGuard.Policy

/-! The runway of a session: how many more turns its completed ones leave before a constraint of the
spend guard binds. Numbers are exact, and times are in seconds. -/

namespace TokenPak.Proxy.SessionForecast
open Library SpendGuard
open Core.Contracts (ValueState CostBasis PriceFreshness RunwayStatus BindingConstraint GuardState)

inductive Cell where
  | null
  | integer (n : Int)
  | real (x : ℚ)
  | infinite
  | text (s : String)
  | blob
  deriving DecidableEq

structure SessionLedgerRow where
  model : Cell
  estimatedCost : Cell
  agentId : Cell
  providerUsageProvider : Cell
  providerInputTokens : Cell
  providerOutputTokens : Cell
  providerCacheReadTokens : Cell
  providerCacheCreationTokens : Cell
  providerUsageSource : Cell
  costBasis : Cell
  deriving DecidableEq

structure Turn where
  row : SessionLedgerRow
  time : ℚ
  deriving DecidableEq

structure RateProvenance where
  complete : Bool
  freshness : PriceFreshness
  deriving DecidableEq

structure NumericValue where
  state : ValueState
  value : Option ℚ
  reason : String
  deriving DecidableEq

structure CostValue where
  state : ValueState
  value : Option ℚ
  basis : CostBasis
  reason : String
  deriving DecidableEq

structure Runway where
  status : RunwayStatus
  turns : Option Nat
  bindingConstraint : BindingConstraint
  guardState : GuardState
  reason : String
  deriving DecidableEq

structure RunwayCandidate where
  turns : Nat
  binding : BindingConstraint
  order : Nat
  hardStop : Bool
  deriving DecidableEq

/-- What the registries say, and how letters are lowered. -/
structure Environment where
  lower : String → String
  inputTokensIncludeCache : String → Option Bool
  modelMaxContext : Option String → Option Int
  catalogProvenance : List Turn → ℚ → RateProvenance

def text : Cell → String
  | .text s => Text.strip s
  | _ => ""

def nonnegativeInt : Cell → Option Int
  | .integer n => if n < 0 then none else some n
  | _ => none

def nonnegativeNumber (cell : Cell) (field : String) : Except String ℚ :=
  match cell with
  | .integer n => if n < 0 then .error (field ++ " must be finite and non-negative") else .ok n
  | .real x => if x < 0 then .error (field ++ " must be finite and non-negative") else .ok x
  | .infinite => .error (field ++ " must be finite and non-negative")
  | _ => .error (field ++ " must be numeric")

section Measurements
variable (env : Environment)

def providerMeasurementIsObserved (row : SessionLedgerRow) : Bool :=
  let source := env.lower (text row.providerUsageSource)
  source ≠ "" ∧ source ∉ ["estimated", "unavailable", "unknown", "error"]

def normalizedCounts (turn : Turn) : Option (Int × Int) := do
  if ¬ providerMeasurementIsObserved env turn.row then none
  else
    let includesCache ← env.inputTokensIncludeCache (text turn.row.providerUsageProvider)
    let input ← nonnegativeInt turn.row.providerInputTokens
    let output ← nonnegativeInt turn.row.providerOutputTokens
    if includesCache then return (input, output)
    else
      let read ← nonnegativeInt turn.row.providerCacheReadTokens
      let creation ← nonnegativeInt turn.row.providerCacheCreationTokens
      return (input + read + creation, output)

def costValue (turns : List Turn) (asOf : ℚ) (rateProvenance : Option RateProvenance) :
    CostValue × Option (List ℚ) :=
  if turns = [] then (⟨.noData, none, .unknown, "session has no completed turns"⟩, none)
  else
    let bases := turns.map fun turn => env.lower (text turn.row.costBasis)
    let billed : Bool := ∀ basis ∈ bases, basis = "provider_bill"
    let rated : Bool := ∀ basis ∈ bases, basis = "provider_usage_rate_estimate"
    if ∃ basis ∈ bases, "subscription".toList <:+: basis.toList then
      (⟨.unavailable, none, .subscription,
        "subscription-billed requests do not expose provider-billed USD"⟩, none)
    else if ∃ turn ∈ turns, turn.row.estimatedCost = .null then
      (⟨.unavailable, none, if billed then .providerBill else if rated then .rateCard else .unknown,
        "estimated_cost is missing for one or more completed turns"⟩, none)
    else
      match turns.mapM fun turn => nonnegativeNumber turn.row.estimatedCost "requests.estimated_cost" with
      | .error reason => (⟨.error, none, .unknown, reason⟩, none)
      | .ok costs =>
        if billed then (⟨.observed, some costs.sum, .providerBill, ""⟩, some costs)
        else if rated then
          let provenance := rateProvenance.getD (env.catalogProvenance turns asOf)
          if provenance.complete ∧
            provenance.freshness = .fresh then (⟨.estimated, some costs.sum, .rateCard, ""⟩,
            some costs)
          else
            let freshness := match provenance.freshness with
              | .fresh => "fresh"
              | .stale => "stale"
              | .unknown => "unknown"
            (⟨.unavailable, none, .rateCard, "complete fresh rate provenance is unavailable (" ++
              freshness ++ ")"⟩, none)
        else (⟨.unavailable, none, .unknown, "completed turns do not share a supported cost basis"⟩, none)

/-- The weighted mean that each value moves by a half. -/
def ewma : List ℚ → Option ℚ
  | [] => none
  | first :: rest => some (rest.foldl (fun current value => 1/2 * value + 1/2 * current) first)

/-- The positive differences between neighbours. -/
def growth (values : List ℚ) : List ℚ := (values.zip values.tail).map fun pair => max 0 (pair.2 - pair.1)

structure SessionState where
  contextGrowthEwma : NumericValue
  burnTokensPerTurn : NumericValue
  burnUsdPerTurn : NumericValue
  deriving DecidableEq

/-- The series on which the runway rests, where every turn is measured. -/
structure Series where
  contexts : Option (List ℚ)
  tokenBurns : Option (List ℚ)
  cacheBurns : Option (List ℚ)
  deriving DecidableEq

def needsTwoTurns : NumericValue := ⟨.noData, none, "at least two completed turns are required"⟩

def burnUsd (turns : List Turn) (cost : CostValue) (costSeries : Option (List ℚ)) : NumericValue :=
  if turns.length < 2 then needsTwoTurns
  else
    match costSeries with
    | none =>
      if cost.state = .error then ⟨.error, none, if cost.reason = "" then "USD measurement failed"
        else cost.reason⟩
      else ⟨.unavailable, none, if cost.reason = "" then "USD measurements are unavailable" else cost.reason⟩
    | some costs => ⟨cost.state, ewma costs, ""⟩

def cacheBurns (turns : List Turn) : Option (List ℚ) :=
  if 2 ≤ turns.length ∧ ∀ turn ∈ turns, providerMeasurementIsObserved env turn.row = true then
    (turns.mapM fun turn => nonnegativeInt turn.row.providerCacheReadTokens).map (·.map Int.cast)
  else none

def stateValues (turns : List Turn) (cost : CostValue) (costSeries : Option (List ℚ)) :
    SessionState × Series :=
  if turns = [] then
    let missing : NumericValue := ⟨.noData, none, "session has no completed turns"⟩
    (⟨missing, missing, missing⟩, ⟨none, none, none⟩)
  else
    match turns.mapM (normalizedCounts env) with
    | none =>
      let unavailable : NumericValue :=
        ⟨.unavailable, none, "normalized provider token counts are incomplete"⟩
      (⟨unavailable, unavailable, burnUsd turns cost costSeries⟩, ⟨none, none, cacheBurns env turns⟩)
    | some pairs =>
      let contexts : List ℚ := pairs.map fun pair => (pair.1 : ℚ)
      let tokenBurns : List ℚ := pairs.map fun pair => ((pair.1 + pair.2 : Int) : ℚ)
      let measured (values : List ℚ) : NumericValue :=
        if turns.length < 2 then needsTwoTurns else ⟨.observed, ewma values, ""⟩
      (⟨measured (growth contexts), measured tokenBurns, burnUsd turns cost costSeries⟩,
        ⟨some contexts, some tokenBurns, cacheBurns env turns⟩)

end Measurements

/-! The runway is resolved from what is measured, one family of constraints after another. -/

def turnsUntil (limit used burn : ℚ) : Option Nat :=
  if used ≥ limit then some 0
  else if burn ≤ 0 then none
  else some ⌈(limit - used) / burn⌉.toNat

/-- What a family of constraints adds to the three lists. -/
structure Findings where
  candidates : List RunwayCandidate := []
  unavailable : List String := []
  learning : List String := []
  deriving DecidableEq

def Findings.join (first second : Findings) : Findings :=
  ⟨first.candidates ++ second.candidates, first.unavailable ++ second.unavailable, first.learning ++
    second.learning⟩

def add (limit used burn : ℚ) (binding : BindingConstraint) (order : Nat) (hard : Bool) :
    List RunwayCandidate :=
  ((turnsUntil limit used burn).map fun remaining => ⟨remaining, binding, order, hard⟩).toList

/-- The measurements of the last turn and how they grow, as far as they are known. -/
structure Latest where
  context : Option ℚ
  contextGrowth : Option ℚ
  tokens : Option ℚ
  tokenGrowth : Option ℚ
  tokenBurn : Option ℚ
  usdBurn : Option ℚ
  cacheBurn : Option ℚ
  cost : Option ℚ
  deriving DecidableEq

def latestOf (state : SessionState) (series : Series) (costSeries : Option (List ℚ)) : Latest where
  context := series.contexts.bind List.getLast?
  contextGrowth := if state.contextGrowthEwma.state = .observed then state.contextGrowthEwma.value else none
  tokens := series.tokenBurns.bind List.getLast?
  tokenGrowth := series.tokenBurns.bind fun burns => if 2 ≤ burns.length then ewma (growth burns) else none
  tokenBurn := if state.burnTokensPerTurn.state = .observed then state.burnTokensPerTurn.value else none
  usdBurn :=
    if state.burnUsdPerTurn.state = .observed ∨
      state.burnUsdPerTurn.state = .estimated then state.burnUsdPerTurn.value else none
  cacheBurn := series.cacheBurns.bind ewma
  cost := costSeries.bind List.getLast?

def hardStopTokens (config : SpendGuardConfig) (window : Int) : ℚ :=
  window * config.hardStopContextWindowPercent / 100

def softBlockTokens (config : SpendGuardConfig) (window : Int) : ℚ :=
  window * config.defaultContextWindowPercent / 100

def contextFindings (config : SpendGuardConfig) (latest : Latest) (window : Int) : Findings :=
  match latest.context with
  | none => { unavailable := ["context measurement is unavailable"] }
  | some context =>
    if context ≥ hardStopTokens config window then { candidates := [⟨0, .contextHard, 0, true⟩] }
    else if context ≥ softBlockTokens config window then { candidates := [⟨0, .contextSoft, 20, false⟩] }
    else
      match latest.contextGrowth with
      | none => { learning := ["context growth needs at least two completed turns"] }
      | some growth =>
        { candidates := add (hardStopTokens config window) context growth .contextHard 10 true ++
            add (softBlockTokens config window) context growth .contextSoft 20 false }

def tokenFindings (config : SpendGuardConfig) (latest : Latest) : Findings :=
  match latest.tokens with
  | none => { unavailable := ["fallback request-token measurement is unavailable"] }
  | some tokens =>
    if tokens ≥ config.hardBlockTokens ∧
      config.hardBlockTokens > 0 then { candidates := [⟨0, .contextHard, 1, true⟩] }
    else if tokens ≥ config.blockTokens ∧
      config.blockTokens > 0 then { candidates := [⟨0, .contextSoft, 21, false⟩] }
    else
      match latest.tokenGrowth with
      | none => { learning := ["request-token growth needs at least two completed turns"] }
      | some growth =>
        { candidates := (if config.hardBlockTokens > 0 then add config.hardBlockTokens tokens growth .contextHard 11 true else []) ++
            (if config.blockTokens > 0 then add config.blockTokens tokens growth .contextSoft 21 false else []) }

def windowCost (config : SpendGuardConfig) (turns : List Turn) (costs : List ℚ) (asOf : ℚ) : ℚ :=
  (((turns.zip costs).filter fun entry => entry.1.time ≥ asOf - config.sessionWindowSeconds).map Prod.snd).sum

def costFindings (config : SpendGuardConfig) (turns : List Turn) (asOf : ℚ)
    (costSeries : Option (List ℚ)) (latest : Latest) : Findings :=
  let perRequest : Bool := config.hardBlockCostUsd > 0 ∨ config.blockCostUsd > 0
  let constrained : Bool := perRequest ∨ config.sessionBlockCostUsd > 0
  match latest.cost, latest.usdBurn with
  | some cost, some usdBurn =>
    let hard : List RunwayCandidate :=
      if config.hardBlockCostUsd > 0 ∧ cost ≥ config.hardBlockCostUsd then [⟨0, .budget, 2, true⟩] else []
    let soft : List RunwayCandidate :=
      if config.blockCostUsd > 0 ∧ cost ≥ config.blockCostUsd then [⟨0, .budget, 22, false⟩] else []
    let session :=
      if config.sessionBlockCostUsd > 0 then
        add config.sessionBlockCostUsd (windowCost config turns (costSeries.getD []) asOf) usdBurn .budget 23 false
      else []
    { candidates := hard ++ soft ++ session
      learning :=
        if perRequest ∧ hard = [] ∧ soft = [] then ["per-request dollar runway needs a measured request-cost growth series"] else [] }
  | _, _ => { unavailable := if constrained then ["active dollar guard lacks complete fresh pricing"] else [] }

inductive Usage where
  | unmeasurable
  | invalid
  | counts (usage : String → Option Cell)

inductive RollingUsage where
  | auto (compute : String → Option Usage)
  | given (usage : Usage)

def agentOf (turns : List Turn) : String :=
  match (turns.map fun turn => text turn.row.agentId).dedup with
  | [agent] => agent
  | _ => ""

structure RollingSpec where
  key : String
  agent : Bool
  cap : ℚ
  burn : Option ℚ
  order : Nat
  deriving DecidableEq

def rollingSpecs (config : SpendGuardConfig) (latest : Latest) : List RollingSpec :=
  [⟨"agent_cost_usd", true, config.rollingCapsPerAgentMaxCostUsd, latest.usdBurn, 30⟩,
    ⟨"agent_tokens_total", true, config.rollingCapsPerAgentMaxTokensTotal, latest.tokenBurn, 31⟩,
    ⟨"agent_cache_read_tokens", true, config.rollingCapsPerAgentMaxCacheReadTokens, latest.cacheBurn, 32⟩,
    ⟨"fleet_cost_usd", false, config.rollingCapsPerFleetMaxCostUsd, latest.usdBurn, 33⟩,
    ⟨"fleet_tokens_total", false, config.rollingCapsPerFleetMaxTokensTotal, latest.tokenBurn, 34⟩,
    ⟨"fleet_cache_read_tokens", false, config.rollingCapsPerFleetMaxCacheReadTokens, latest.cacheBurn, 35⟩]

def rollingError (reason : String) : Runway := ⟨.error, none, .rollingCap, .softBlock, reason⟩

def rollingValue (usage : String → Option Cell) (key : String) : Except String ℚ :=
  match usage key with
  | none => .error ("rolling usage is missing " ++ key)
  | some cell => nonnegativeNumber cell ("rolling_usage." ++ key)

def rollingFinding (agent : String) (usage : String → Option Cell) (spec : RollingSpec) :
    Except Runway Findings :=
  if spec.cap ≤ 0 ∨ spec.agent = true ∧ agent = "" then .ok {}
  else
    match rollingValue usage spec.key with
    | .error reason => .error (rollingError reason)
    | .ok used =>
      if used ≥ spec.cap then .ok { candidates := [⟨0, .rollingCap, spec.order, false⟩] }
      else
        match spec.burn with
        | none => .ok { unavailable := ["active " ++ spec.key ++ " cap lacks a measured per-turn burn"] }
        | some burn => .ok { candidates := add spec.cap used burn .rollingCap spec.order false }

def RollingUsage.resolve (usage : RollingUsage) (agent : String) : Except Runway Usage :=
  match usage with
  | .given usage => .ok usage
  | .auto compute =>
    match compute agent with
    | some usage => .ok usage
    | none => .error (rollingError "rolling-cap usage failed; inspect local proxy logs before retrying")

def rollingFindings (config : SpendGuardConfig) (agent : String) (latest : Latest)
    (usage : RollingUsage) : Except Runway Findings :=
  if config.rollingCapsEnabled then
    let active := (rollingSpecs config latest).filter fun spec => spec.cap > 0
    let perAgent := active.any RollingSpec.agent
    let fleet := active.any (!·.agent)
    let unattributed : Findings :=
      if perAgent ∧ agent = "" then { unavailable := ["active per-agent rolling cap lacks one stable agent attribution"] } else {}
    if fleet ∨ perAgent ∧ agent ≠ "" then do
      match ← usage.resolve agent with
      | .unmeasurable => .error (rollingError "rolling-cap usage is unmeasurable")
      | .invalid => .error (rollingError "rolling-cap usage returned an invalid shape")
      | .counts counts =>
        let found ← (rollingSpecs config latest).mapM (rollingFinding agent counts)
        return found.foldl Findings.join unattributed
    else .ok unattributed
  else .ok {}

def unknownRunway (status : RunwayStatus) (reason : String) : Runway :=
  ⟨status, none, .unknown, .unknown, reason⟩

/-- Each text once, in the order in which it came. -/
def joinReasons (reasons : List String) : String := "; ".intercalate reasons.eraseDups

/-- The first of the candidates under an order, as `min` and a stable sort take it. -/
def firstOf (before : RunwayCandidate → RunwayCandidate → Bool) :
    List RunwayCandidate → Option RunwayCandidate
  | [] => none
  | candidate :: rest =>
    match firstOf before rest with
    | none => some candidate
    | some other => some (if before other candidate then other else candidate)

def RunwayCandidate.sooner (candidate other : RunwayCandidate) : Bool :=
  candidate.turns < other.turns ∨ candidate.turns = other.turns ∧ candidate.order < other.order

def isAmber (config : SpendGuardConfig) (latest : Latest) : Bool :=
  (config.warnTokens > 0 ∧ latest.tokens.any (· ≥ (config.warnTokens : ℚ))) ∨
    (config.warnCostUsd > 0 ∧ latest.cost.any (· ≥ config.warnCostUsd))

def concludeRunway (config : SpendGuardConfig) (latest : Latest) (found : Findings) : Runway :=
  if found.unavailable ≠ [] then unknownRunway .unavailable (joinReasons found.unavailable)
  else
    match firstOf (fun first second => first.order < second.order)
        (found.candidates.filter (·.turns = 0)) with
    | some winner =>
        ⟨.available, some 0, winner.binding, .softBlock,
          "an active soft-block constraint is already binding"⟩
    | none =>
      if found.learning ≠ [] then unknownRunway .learning (joinReasons found.learning)
      else
        match firstOf RunwayCandidate.sooner found.candidates with
        | none => unknownRunway .unavailable "no active constraint has a finite measurable runway"
        | some winner =>
          let guard :=
            if found.candidates.any (·.turns = 0) then .softBlock
              else if isAmber config latest then .amber else .allow
          ⟨.available, some winner.turns, winner.binding, guard, ""⟩

def windowOf (env : Environment) (turns : List Turn) : Option Int :=
  let model := (turns.getLast?.map fun turn => text turn.row.model).getD ""
  (env.modelMaxContext (if model = "" then none else some model)).filter (0 < ·)

def currentFindings (env : Environment) (config : SpendGuardConfig) (turns : List Turn) (asOf : ℚ)
    (costSeries : Option (List ℚ))
    (latest : Latest) : Findings :=
  let context := match windowOf env turns with
    | some window => contextFindings config latest window
    | none => tokenFindings config latest
  context.join (costFindings config turns asOf costSeries latest)

def resolveRunway (env : Environment) (turns : List Turn) (state : SessionState)
    (costSeries : Option (List ℚ)) (series : Series)
    (asOf : ℚ) (config : SpendGuardConfig) (usage : RollingUsage) : Runway :=
  if turns = [] then unknownRunway .unavailable "session has no completed turns"
  else if config.enabled = false then unknownRunway .unavailable "Spend Guard constraints are disabled"
  else
    let latest := latestOf state series costSeries
    let current := currentFindings env config turns asOf costSeries latest
    -- a known hard stop is terminal
    match firstOf (fun first second => first.order < second.order)
        (current.candidates.filter fun c => c.hardStop ∧ c.turns = 0) with
    | some winner =>
        ⟨.available, some 0, winner.binding, .hardStop,
          "an active hard-stop constraint is already binding"⟩
    | none =>
      match rollingFindings config (agentOf turns) latest usage with
      | .error runway => runway
      | .ok rolling => concludeRunway config latest (current.join rolling)

def sessionRunway (env : Environment) (turns : List Turn) (asOf : ℚ) (rateProvenance : Option RateProvenance)
    (config : SpendGuardConfig) (usage : RollingUsage) : Runway :=
  let cost := costValue env turns asOf rateProvenance
  let measured := stateValues env turns cost.1 cost.2
  resolveRunway env turns measured.1 cost.2 measured.2 asOf config usage

end TokenPak.Proxy.SessionForecast
