import TokenPak.Reservations.Ledger

/-! The operations of the reservation store. Admission resolves the basis,
prunes, reads the monitor and the standing holds, checks the caps and inserts,
all under one write lock. -/

namespace TokenPak.Reservations
open Library Transaction
open SpendGuard (Time seconds CapBreach)
open SpendGuard.RollingCaps (RollingCapsConfig)

/-- Recorded usage of the window, and the reservations whose usage is committed.
For priced usage the second is not limited to the window. -/
def recorded (store : Store) (receipts : Receipts) (agentId : String) (windowSeconds : Int) (now : Time)
    (requirePrices : Bool) (monitor : Monitor) (guard : Guard) : Except Failure (Usage × Committed) := do
  let cutoff := windowStart windowSeconds now
  let rows := monitor.requests.rows
  let ensurePriced := if requirePrices then validateRecordedPrices receipts cutoff rows else .ok ()
  monitor.checkDomain store
  match store.accountingBasis with
  | .providerTokens =>
    ensure (requirePrices = false) (.unavailable "token accounting requires its unpriced guard transaction")
    recordedTokens store monitor guard cutoff agentId
  | .pricedUsage =>
    validateRecordedRows cutoff rows
    ensurePriced
    return (queryRecordedUsage cutoff agentId rows,
      correlate (fun row => sqlLower row.agentId) (rows.filter (Row.CompleteFor store.ledgerKey)))

def Reservation.share (basis : Basis) (agentId : String) (hold : Reservation) (dimension : Dimension) : ℚ :=
  if (basis = .pricedUsage ∨ dimension.measure ≠ .costUsd) ∧ dimension.scope.covers agentId hold.agentId then
    hold.reserved.amount dimension.measure
  else 0

/-- One hold of the loop over standing holds. -/
def addActive (store : Store) (agentId : String) (now : Time) (committed : Committed) (totals : Usage)
    (hold : Reservation) : Except Failure Usage :=
  match committed hold.reservationId with
  | some attribution =>
    if attribution = (hold.sessionId, hold.agentId) then .ok totals
    else .error (.unavailable "committed reservation attribution changed")
  | none => do
    number hold.expiresAt "expires_at"
    ensure (¬ (hold.expiresAt ≤ now ∨ hold.status = .expired)) (.unavailable "unresolved expired reservation")
    return totals + hold.share store.accountingBasis agentId

/-- The projections of the holds that no committed row has replaced. -/
def active (store : Store) (agentId : String) (now : Time) (committed : Committed) (guard : Guard) :
    Except Failure Usage := do
  ensure (¬ ∃ hold ∈ guard.reservations.rows, hold.Unresolved "")
    (.unavailable "active legacy reservations have unknown ledger scope")
  guard.checkBasis store
  (guard.reservations.rows.filter (Reservation.Unresolved store.ledgerKey)).foldlM
    (addActive store agentId now committed) 0

structure Call where
  sessionId : String
  agentId : String
  ownerInstanceId : String
  requestId : String
  projection : Projection
  caps : RollingCapsConfig
  ttlSeconds : Int
  force : Bool
  deriving DecidableEq

def Call.agent (call : Call) : String := Text.lower call.agentId

def Call.validate (store : Store) (call : Call) : Except Failure Unit := do
  identity call.sessionId "session_id" true
  identity call.agentId "agent_id" true
  identity call.ownerInstanceId "owner_instance_id" false
  identity call.requestId "request_id" false
  number call.ttlSeconds "ttl_seconds"
  number call.caps.windowSeconds "window_seconds"
  ensure (call.ttlSeconds ≠ 0 ∧ call.caps.windowSeconds ≠ 0)
    (.invalid "reservation TTL and rolling window must be positive")
  dimensions.forM fun dimension => number (capOf call.caps dimension) (capField dimension)
  ensure (¬ (store.accountingBasis = .providerTokens ∧ (call.force ∨ call.caps.enabled = false ∨
      call.caps.perAgentMaxCostUsd ≠ 0 ∨ call.caps.perFleetMaxCostUsd ≠ 0 ∨ call.caps.perFleetMaxTokensTotal ≤ 0)))
    (.unavailable "provider-token admission requires token caps without force or monetary caps")

def Call.requirePrices (call : Call) : Bool :=
  call.caps.perFleetMaxCostUsd > 0 ∨ call.agent ≠ "" ∧ call.caps.perAgentMaxCostUsd > 0

/-- The cap applies: it is positive, and an agent cap has an agent. -/
def Call.Capped (call : Call) (dimension : Dimension) : Prop :=
  0 < capOf call.caps dimension ∧ (dimension.scope = .agent → call.agent ≠ "")

instance (call : Call) (dimension : Dimension) : Decidable (call.Capped dimension) :=
  inferInstanceAs (Decidable (_ ∧ _))

def Call.breach (call : Call) (recorded active : Usage) (dimension : Dimension) : Option ReservationBreach :=
  let add := call.projection.amount dimension.measure
  if call.Capped dimension ∧ recorded dimension + active dimension + add > capOf call.caps dimension then
    some { capDimension := capDimension dimension
           agentId := if call.agent = "" then "unknown" else call.agent
           windowSeconds := call.caps.windowSeconds
           used := recorded dimension + active dimension
           cap := capOf call.caps dimension
           projectedAdd := add
           retryAfterSeconds := min call.ttlSeconds 60
           settledUsed := recorded dimension
           reservedActive := active dimension }
  else none

def Call.firstBreach (call : Call) (recorded active : Usage) : Option ReservationBreach :=
  dimensions.findSome? (call.breach recorded active)

/-- Refuse unless recorded and reserved usage leave room under every cap. -/
def checkCaps (store : Store) (receipts : Receipts) (call : Call) (now : Time) (monitor : Monitor)
    (guard : Guard) :
    Except Abort Unit := do
  let (used, committed) ←
    (recorded store receipts call.agent call.caps.windowSeconds now call.requirePrices monitor guard).mapError .failure
  let held ← (active store call.agent now committed guard).mapError .failure
  match call.firstBreach used held with
  | some breach => throw (.breach breach)
  | none => return ()

def Call.hold (store : Store) (call : Call) (reservationId : String) (now : Time) : Reservation where
  reservationId := reservationId
  sessionId := call.sessionId
  agentId := call.agent
  createdAt := now
  expiresAt := now + seconds call.ttlSeconds
  reserved := call.projection
  status := .active
  actual := none
  ledgerKey := store.ledgerKey
  ownerInstanceId := call.ownerInstanceId
  requestId := call.requestId
  settledAt := none
  accountingBasis := some store.accountingBasis

def insertReservation (hold : Reservation) : Transaction Guard Failure Unit := do
  let guard ← get
  match guard.reservations.insert hold with
  | none => throw .integrity
  | some reservations => set { guard with reservations }

/-- The statements of `reserve`. The clock is read twice, before pruning and in it. -/
def reserveStatements (store : Store) (receipts : Receipts) (call : Call) (reservationId : String)
    (now pruning : Time)
    (monitor : Monitor) : Transaction Guard Abort Unit := do
  widen .failure (bindBasis store)
  widen .failure (maintainHistory store call.caps.windowSeconds pruning)
  if call.force = false ∧ call.caps.enabled = true then
    read (checkCaps store receipts call now monitor)
  widen .failure (insertReservation (call.hold store reservationId now))
  modify (Guard.generationChanged store.ledgerKey)

inductive Outcome where
  | admitted (ref : ReservationRef)
  | blocked (breach : ReservationBreach)
  deriving DecidableEq

def reserve (store : Store) (receipts : Receipts) (call : Call) (reservationId : String) (now pruning : Time)
    (monitor : Monitor) (guard : Guard) : Except Failure Outcome × Guard :=
  match call.validate store with
  | .error failure => (.error failure, guard)
  | .ok _ =>
    match atomically (reserveStatements store receipts call reservationId now pruning monitor) guard with
    | (.ok _, after) =>
        (.ok (.admitted ⟨store.path, store.ledgerKey, reservationId, store.accountingBasis⟩), after)
    | (.error (.breach breach), after) => (.ok (.blocked breach), after)
    | (.error (.failure failure), after) => (.error failure, after)

end TokenPak.Reservations
