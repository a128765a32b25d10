import TokenPak.SpendGuard.Policy

/-! Rolling caps with the in-flight register. Recorded usage is a reading of the
usage database or a total cached from one; the register holds the projections of admitted requests until
they are settled or outlive their TTL. -/

namespace TokenPak.SpendGuard.RollingCaps
open Library

structure RollingUsage where
  agentCostUsd : ℚ
  agentTokensTotal : Int
  agentCacheReadTokens : Int
  fleetCostUsd : ℚ
  fleetTokensTotal : Int
  fleetCacheReadTokens : Int
  deriving DecidableEq

structure RollingCapsConfig where
  enabled : Bool
  windowSeconds : Int
  perAgentMaxCostUsd : ℚ
  perAgentMaxTokensTotal : Int
  perAgentMaxCacheReadTokens : Int
  perFleetMaxCostUsd : ℚ
  perFleetMaxTokensTotal : Int
  perFleetMaxCacheReadTokens : Int
  deriving DecidableEq

structure Ticket where
  id : String
  agentId : String
  costUsd : ℚ
  tokensTotal : Int
  cacheReadTokens : Int
  admittedAt : Time
  deriving DecidableEq

structure Admission where
  agentId : String
  projectedCostUsd : ℚ
  projectedInputTokens : Int
  projectedOutputTokens : Int
  projectedCacheReadTokens : Int
  config : RollingCapsConfig
  deriving DecidableEq

def inflightTtl : Time := seconds 600

/-- Recorded usage as a check reads it: a cached total until it expires, and the
reading of the database after that. -/
def computeRollingUsage (cached : Option (Time × RollingUsage)) (now : Time)
    (measured : Option RollingUsage) : Option RollingUsage :=
  (cached.filter fun entry => now < entry.1).elim measured fun entry => some entry.2

def admitPendingSpend (ticket : String) (now : Time) (agentId : String) (costUsd : ℚ)
    (tokensTotal cacheRead : Int)
    (inflight : List Ticket) : List Ticket :=
  inflight.filter (·.id ≠ ticket) ++ [⟨ticket, Text.lower agentId, costUsd, tokensTotal, cacheRead, now⟩]

def settlePendingSpend (ticket : String) (inflight : List Ticket) : Bool × List Ticket :=
  if ticket = "" then (false, inflight)
  else (inflight.any (·.id = ticket), inflight.filter (·.id ≠ ticket))

/-- Tickets past their TTL leave the register when totals are taken. -/
def live (now : Time) (inflight : List Ticket) : List Ticket :=
  inflight.filter fun t => now - inflightTtl ≤ t.admittedAt

def pendingSpendTotals (agentId : String) (inflight : List Ticket) : RollingUsage :=
  let own := inflight.filter fun t => Text.lower agentId ≠ "" ∧ t.agentId = Text.lower agentId
  { agentCostUsd := (own.map Ticket.costUsd).sum
    agentTokensTotal := (own.map Ticket.tokensTotal).sum
    agentCacheReadTokens := (own.map Ticket.cacheReadTokens).sum
    fleetCostUsd := (inflight.map Ticket.costUsd).sum
    fleetTokensTotal := (inflight.map Ticket.tokensTotal).sum
    fleetCacheReadTokens := (inflight.map Ticket.cacheReadTokens).sum }

def RollingUsage.add (usage pending : RollingUsage) : RollingUsage :=
  { agentCostUsd := usage.agentCostUsd + pending.agentCostUsd
    agentTokensTotal := usage.agentTokensTotal + pending.agentTokensTotal
    agentCacheReadTokens := usage.agentCacheReadTokens + pending.agentCacheReadTokens
    fleetCostUsd := usage.fleetCostUsd + pending.fleetCostUsd
    fleetTokensTotal := usage.fleetTokensTotal + pending.fleetTokensTotal
    fleetCacheReadTokens := usage.fleetCacheReadTokens + pending.fleetCacheReadTokens }

/-- In-flight totals are folded in only when the fleet has some. -/
def withPending (usage pending : RollingUsage) : RollingUsage :=
  if pending.fleetCostUsd ≠ 0 ∨ pending.fleetTokensTotal ≠ 0 ∨
    pending.fleetCacheReadTokens ≠ 0 then usage.add pending
  else usage

def checkCap (dimension : CapDimension) (agentId : String) (windowSeconds : Int)
    (used add cap : ℚ) : Option CapBreach :=
  if cap > 0 ∧ used + add > cap then some ⟨dimension, agentId, windowSeconds, used, cap, add, 1800⟩ else none

/-- The first breached cap, per agent before per fleet. -/
def checkRollingCaps (admission : Admission) (usage : Option RollingUsage)
    (inflight : List Ticket) : Option CapBreach :=
  let config := admission.config
  let agent := admission.agentId
  let named := if agent = "" then "unknown" else agent
  let window := config.windowSeconds
  let tokens : ℚ := admission.projectedInputTokens + admission.projectedOutputTokens
  let cacheRead : ℚ := admission.projectedCacheReadTokens
  if config.enabled = false then none
  else match usage with
    | none => some ⟨.unmeasurable, named, window, 0, 0, admission.projectedCostUsd, 60⟩
    | some recorded =>
      let usage := withPending recorded (pendingSpendTotals agent inflight)
      let perAgent := if agent = "" then none else
        checkCap .perAgentCostUsd agent window usage.agentCostUsd admission.projectedCostUsd config.perAgentMaxCostUsd <|>
        checkCap .perAgentTokensTotal agent window usage.agentTokensTotal tokens config.perAgentMaxTokensTotal <|>
        checkCap .perAgentCacheReadTokens agent window usage.agentCacheReadTokens cacheRead config.perAgentMaxCacheReadTokens
      perAgent <|>
        checkCap .perFleetCostUsd named window usage.fleetCostUsd admission.projectedCostUsd config.perFleetMaxCostUsd <|>
        checkCap .perFleetTokensTotal named window usage.fleetTokensTotal tokens config.perFleetMaxTokensTotal <|>
        checkCap .perFleetCacheReadTokens named window usage.fleetCacheReadTokens cacheRead config.perFleetMaxCacheReadTokens

/-- Check and, on a pass, register, in one locked section. The totals are only
taken, and the register only cleaned, once usage could be measured. -/
def checkRollingCapsAndAdmit (admission : Admission) (usage : Option RollingUsage) (ticket : String)
    (now : Time)
    (inflight : List Ticket) : (Option CapBreach × Option String) × List Ticket :=
  let inflight := if admission.config.enabled ∧ usage.isSome then live now inflight else inflight
  match checkRollingCaps admission usage inflight with
  | some breach => ((some breach, none), inflight)
  | none => ((none, some ticket), admitPendingSpend ticket now admission.agentId admission.projectedCostUsd
      (admission.projectedInputTokens + admission.projectedOutputTokens) admission.projectedCacheReadTokens inflight)

end TokenPak.SpendGuard.RollingCaps
