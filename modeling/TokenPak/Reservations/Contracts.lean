import TokenPak.SpendGuard.RollingCaps

/-! The values of durable admission: projections, the six capped dimensions,
references and refusals. A projection cannot be built with a negative part. -/

namespace TokenPak.Reservations
open Library
open SpendGuard (Time seconds CapDimension CapBreach)
open SpendGuard.RollingCaps (RollingCapsConfig)

inductive Failure where
  | unavailable (message : String)
  | invalid (message : String)
  | integrity
  deriving DecidableEq

inductive Basis where
  | pricedUsage | providerTokens
  deriving DecidableEq

def number (value : ℚ) (name : String) : Except Failure Unit :=
  if 0 ≤ value then .ok () else .error (.invalid (name ++ " must be finite and nonnegative"))

def identity (value name : String) (empty : Bool) : Except Failure Unit :=
  if (value = "" ∧ empty = false) ∨ value.length > 512 ∨ Text.strip value ≠ value ∨
      value.toList.any (·.toNat < 32) then
    .error (.invalid ("invalid " ++ name))
  else .ok ()

structure Projection where
  costUsd : ℚ
  inputTokens : Nat
  outputTokens : Nat
  cacheReadTokens : Nat
  cost_nonneg : 0 ≤ costUsd := by decide
  deriving DecidableEq

inductive Measure where
  | costUsd | tokensTotal | cacheReadTokens
  deriving DecidableEq

inductive Scope where
  | agent | fleet
  deriving DecidableEq

structure Dimension where
  scope : Scope
  measure : Measure
  deriving DecidableEq

def dimensions : List Dimension :=
  [⟨.agent, .costUsd⟩, ⟨.agent, .tokensTotal⟩, ⟨.agent, .cacheReadTokens⟩,
    ⟨.fleet, .costUsd⟩, ⟨.fleet, .tokensTotal⟩, ⟨.fleet, .cacheReadTokens⟩]

abbrev Usage := Dimension → ℚ

def Projection.amount (projection : Projection) : Measure → ℚ
  | .costUsd => projection.costUsd
  | .tokensTotal => projection.inputTokens + projection.outputTokens
  | .cacheReadTokens => projection.cacheReadTokens

theorem Projection.amount_nonneg (projection : Projection) (measure : Measure) :
    0 ≤ projection.amount measure := by
  cases measure with
  | costUsd => exact projection.cost_nonneg
  | tokensTotal => exact add_nonneg (Nat.cast_nonneg _) (Nat.cast_nonneg _)
  | cacheReadTokens => exact Nat.cast_nonneg _

def capOf (caps : RollingCapsConfig) : Dimension → ℚ
  | ⟨.agent, .costUsd⟩ => caps.perAgentMaxCostUsd
  | ⟨.agent, .tokensTotal⟩ => caps.perAgentMaxTokensTotal
  | ⟨.agent, .cacheReadTokens⟩ => caps.perAgentMaxCacheReadTokens
  | ⟨.fleet, .costUsd⟩ => caps.perFleetMaxCostUsd
  | ⟨.fleet, .tokensTotal⟩ => caps.perFleetMaxTokensTotal
  | ⟨.fleet, .cacheReadTokens⟩ => caps.perFleetMaxCacheReadTokens

def capField : Dimension → String
  | ⟨.agent, .costUsd⟩ => "per_agent_max_cost_usd"
  | ⟨.agent, .tokensTotal⟩ => "per_agent_max_tokens_total"
  | ⟨.agent, .cacheReadTokens⟩ => "per_agent_max_cache_read_tokens"
  | ⟨.fleet, .costUsd⟩ => "per_fleet_max_cost_usd"
  | ⟨.fleet, .tokensTotal⟩ => "per_fleet_max_tokens_total"
  | ⟨.fleet, .cacheReadTokens⟩ => "per_fleet_max_cache_read_tokens"

def capDimension : Dimension → CapDimension
  | ⟨.agent, .costUsd⟩ => .perAgentCostUsd
  | ⟨.agent, .tokensTotal⟩ => .perAgentTokensTotal
  | ⟨.agent, .cacheReadTokens⟩ => .perAgentCacheReadTokens
  | ⟨.fleet, .costUsd⟩ => .perFleetCostUsd
  | ⟨.fleet, .tokensTotal⟩ => .perFleetTokensTotal
  | ⟨.fleet, .cacheReadTokens⟩ => .perFleetCacheReadTokens

/-- A dimension as seen by one caller: the fleet, or the agent it names. -/
def Scope.covers (scope : Scope) (agentId other : String) : Prop := scope = .fleet ∨ other = agentId

instance (scope : Scope) (agentId other : String) : Decidable (scope.covers agentId other) :=
  inferInstanceAs (Decidable (_ ∨ _))

structure ReservationRef where
  storePath : String
  ledgerKey : String
  reservationId : String
  accountingBasis : Basis
  deriving DecidableEq

structure ReservationBreach extends CapBreach where
  settledUsed : ℚ
  reservedActive : ℚ
  deriving DecidableEq

/-- Why a transaction is rolled back: it raised, or a cap refused the request. -/
inductive Abort where
  | failure (failure : Failure)
  | breach (breach : ReservationBreach)
  deriving DecidableEq

structure Store where
  path : String
  ledgerId : String
  ledgerKey : String
  auditStoreSha256 : String
  historySeconds : Nat
  maxRecords : Nat
  accountingBasis : Basis
  history_pos : 0 < historySeconds := by decide
  records_pos : 0 < maxRecords := by decide

/-- SQL `lower`, which maps ASCII letters only. -/
def sqlLower (text : String) : String :=
  String.ofList (text.toList.map fun c => if 0x41 ≤ c.toNat ∧
    c.toNat ≤ 0x5a then Char.ofNat (c.toNat + 32) else c)

/-- Who a request is accounted to; agent names are resolved in lower case. -/
structure Attribution where
  sessionId : String
  agentId : String
  lowered : Text.lower agentId = agentId := by decide
  deriving DecidableEq

/-- A name in lower case is left alone by the database's own mapping. -/
theorem sqlLower_of_lower {text : String} (lowered : Text.lower text = text) : sqlLower text = text := by
  have fixed : text.toList.map Text.lowerChar = text.toList.map id := by
    rw [List.map_id, ← String.toList_ofList (l := text.toList.map _)]
    exact congrArg String.toList lowered
  rw [sqlLower, ← String.toList_inj, String.toList_ofList]
  refine (List.map_congr_left fun c member => if_neg fun upper => ?_).trans (List.map_id _)
  have same : Text.lowerChar c = c := List.map_inj_left.mp fixed c member
  have valid : (c.toNat + 32).isValidChar := .inl (by omega)
  rw [Text.lowerChar, if_pos (.inl upper), Char.ofNat, dif_pos valid] at same
  have moved : c.toNat + 32 = c.toNat := congrArg Char.toNat same
  omega

end TokenPak.Reservations
