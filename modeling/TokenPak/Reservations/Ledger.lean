import TokenPak.Library.Transaction
import TokenPak.Reservations.Monitor

/-! The guard database: reservations, request coverage and one generation per
ledger. Each operation is one write transaction; what it reads of the monitor is
an argument. -/

namespace TokenPak.Reservations
open Library Transaction
open SpendGuard (Time seconds)
open SpendGuard.RollingCaps (RollingCapsConfig)

inductive Status where
  | active | expired | settled | released
  deriving DecidableEq

structure Actual where
  costUsd : Option ℚ
  tokens : Nat
  cacheReadTokens : Nat
  deriving DecidableEq

structure Reservation where
  reservationId : String
  sessionId : String
  agentId : String
  createdAt : Time
  expiresAt : Time
  reserved : Projection
  status : Status
  actual : Option Actual
  ledgerKey : String
  ownerInstanceId : String
  requestId : String
  settledAt : Option Time
  accountingBasis : Option Basis
  deriving DecidableEq

inductive CoverageState where
  | preflight | sending | awaitingUsage | recorded | unsent
  deriving DecidableEq

structure TokenObservation where
  provider : Option String
  requestModel : Option String
  uncachedInputTokens : Option Nat
  cacheReadTokens : Option Nat
  cacheCreationTokens : Option Nat
  inputTokens : Option Nat
  outputTokens : Option Nat
  responseComplete : Bool
  tokenUsageComplete : Bool
  deriving DecidableEq

structure Coverage where
  coverageId : String
  ledgerKey : String
  ownerInstanceId : String
  sessionId : String
  startedAt : Time
  endedAt : Option Time
  attempts : Nat
  reservationId : String
  state : CoverageState
  workloadJson : Option String
  accountingBasis : Option Basis
  tokenObservation : Option TokenObservation
  deriving DecidableEq

structure Generation where
  ledgerKey : String
  generation : Nat
  accountingBasis : Option Basis
  deriving DecidableEq

def Reservation.primaryKey (row : Reservation) : Option String := some row.reservationId
def Coverage.primaryKey (row : Coverage) : Option String := some row.coverageId
def Generation.primaryKey (row : Generation) : Option String := some row.ledgerKey

structure Guard where
  reservations : Table Reservation String Reservation.primaryKey
  coverage : Table Coverage String Coverage.primaryKey
  generations : Table Generation String Generation.primaryKey

def Guard.empty : Guard := ⟨.empty, .empty, .empty⟩

/-- A hold that still stands against the budget of its ledger. -/
def Reservation.Unresolved (ledgerKey : String) (row : Reservation) : Prop :=
  row.ledgerKey = ledgerKey ∧ (row.status = .active ∨ row.status = .expired)

instance (ledgerKey : String) (row : Reservation) : Decidable (row.Unresolved ledgerKey) :=
  inferInstanceAs (Decidable (_ ∧ _))

namespace Guard

def generationRow (ledgerKey : String) (guard : Guard) : Option Generation :=
  guard.generations.rows.find? (·.ledgerKey = ledgerKey)

def readGeneration (ledgerKey : String) (guard : Guard) : Except Failure Nat :=
  match guard.generationRow ledgerKey with
  | none => .error (.unavailable "accounting generation is unavailable")
  | some row => .ok row.generation

def generationChanged (ledgerKey : String) (guard : Guard) : Guard :=
  let next := fun row : Generation => { row with generation := row.generation + 1 }
  { guard with generations := guard.generations.upsert ⟨ledgerKey, 1, none⟩ next fun _ => rfl }

def basisBound (ledgerKey : String) (basis : Basis) (guard : Guard) : Guard :=
  let bind := fun row : Generation => { row with accountingBasis := row.accountingBasis.or (some basis) }
  { guard with generations := guard.generations.upsert ⟨ledgerKey, 0, some basis⟩ bind fun _ => rfl }

def checkBasis (store : Store) (guard : Guard) : Except Failure Unit :=
  let basis := ((guard.generationRow store.ledgerKey).bind Generation.accountingBasis).getD .pricedUsage
  if basis = store.accountingBasis then .ok () else .error (.unavailable "accounting domain basis differs")

end Guard

def bindBasis (store : Store) : Transaction Guard Failure Unit := do
  let guard ← get
  if ((guard.generationRow store.ledgerKey).bind Generation.accountingBasis).isSome then
    read (Guard.checkBasis store)
  else
    require (¬ (store.accountingBasis = .providerTokens ∧
        ((∃ row ∈ guard.reservations.rows, row.ledgerKey = store.ledgerKey) ∨
          ∃ row ∈ guard.coverage.rows, row.ledgerKey = store.ledgerKey)))
      (.unavailable "existing accounting domain cannot change basis")
    modify (Guard.basisBound store.ledgerKey store.accountingBasis)
    read (Guard.checkBasis store)

def Reservation.Prunable (ledgerKey : String) (cutoff : Time) (row : Reservation) : Prop :=
  row.ledgerKey = ledgerKey ∧ (row.status = .settled ∨ row.status = .released) ∧
    ∃ time ∈ row.settledAt, time < cutoff

instance (ledgerKey : String) (cutoff : Time) (row : Reservation) :
    Decidable (row.Prunable ledgerKey cutoff) :=
  inferInstanceAs (Decidable (_ ∧ _))

def Coverage.Prunable (ledgerKey : String) (cutoff : Time) (row : Coverage) : Prop :=
  row.ledgerKey = ledgerKey ∧ (row.state = .recorded ∨ row.state = .unsent) ∧ ∃ time ∈ row.endedAt,
    time < cutoff

instance (ledgerKey : String) (cutoff : Time) (row : Coverage) : Decidable (row.Prunable ledgerKey cutoff) :=
  inferInstanceAs (Decidable (_ ∧ _))

/-- The identifiers one pruning statement deletes. -/
def prunedReservations (ledgerKey : String) (cutoff : Time) (guard : Guard) : List String :=
  ((guard.reservations.rows.filter (Reservation.Prunable ledgerKey cutoff)).take 1000).map Reservation.reservationId

def prunedCoverage (ledgerKey : String) (cutoff : Time) (guard : Guard) : List String :=
  ((guard.coverage.rows.filter (Coverage.Prunable ledgerKey cutoff)).take 1000).map Coverage.coverageId

/-- Bound completed metadata; unresolved rows stay. -/
def maintainHistory (store : Store) (windowSeconds : Int) (now : Time) : Transaction Guard Failure Unit := do
  let cutoff := now - seconds (max (store.historySeconds : Int) windowSeconds)
  let guard ← get
  let reservations := prunedReservations store.ledgerKey cutoff guard
  modify fun guard =>
    { guard with reservations := guard.reservations.delete (·.reservationId ∈ reservations) }
  let pruned ← get
  require (pruned.reservations.rows.length < store.maxRecords)
    (.unavailable "reservation metadata capacity exhausted")
  let coverage := prunedCoverage store.ledgerKey cutoff pruned
  modify fun guard => { guard with coverage := guard.coverage.delete (·.coverageId ∈ coverage) }
  let trimmed ← get
  require (trimmed.coverage.rows.length < store.maxRecords)
    (.unavailable "reservation metadata capacity exhausted")
  modify fun guard => if reservations.length + coverage.length = 0 then guard
    else guard.generationChanged store.ledgerKey

end TokenPak.Reservations

/-! Token-only accounting: committed rows are correlated with their coverage
receipt and their reservation before any of them is counted. -/

namespace TokenPak.Reservations
open Library Transaction
open SpendGuard (Time seconds)

def countsAgree (row : Row) (observation : TokenObservation) : Prop :=
  let agrees := fun (stored : Option Int) (expected : Option Nat) => ∃ count ∈ stored,
    expected.map Int.ofNat = some count
  agrees row.inputTokens observation.inputTokens ∧ agrees row.outputTokens observation.outputTokens ∧
    agrees row.cacheReadTokens observation.cacheReadTokens ∧
    agrees row.cacheCreationTokens observation.cacheCreationTokens ∧
    agrees row.providerInputTokens observation.uncachedInputTokens ∧
    agrees row.providerOutputTokens observation.outputTokens ∧
    agrees row.providerCacheReadTokens observation.cacheReadTokens ∧
    agrees row.providerCacheCreationTokens observation.cacheCreationTokens

instance (row : Row) (observation : TokenObservation) : Decidable (countsAgree row observation) :=
  inferInstanceAs (Decidable (_ ∧ _))

def Row.TokenCompleteFor (ledgerKey : String) (row : Row) : Prop :=
  row.guardReservationId ≠ "" ∧ row.guardLedgerKey = ledgerKey ∧ row.guardTokenUsageComplete = true ∧
    row.guardUsageComplete = false

instance (ledgerKey : String) (row : Row) : Decidable (row.TokenCompleteFor ledgerKey) :=
  inferInstanceAs (Decidable (_ ∧ _))

/-- Correlate one committed row with the guard's own records of it. -/
def tokenReceipt (store : Store) (guard : Guard) (seen : List String) (row : Row) :
    Except Failure TokenObservation := do
  ensure (row.TokenCompleteFor store.ledgerKey ∧ row.guardReservationId ∉ seen)
    (.unavailable "committed token coverage is incomplete")
  let coverage := guard.coverage.rows.filter fun entry =>
    entry.reservationId = row.guardReservationId ∧ entry.ledgerKey = store.ledgerKey
  let reservation := guard.reservations.rows.find? fun entry =>
    entry.reservationId = row.guardReservationId ∧ entry.ledgerKey = store.ledgerKey
  match coverage, reservation with
  | [entry], some hold =>
    ensure (entry.sessionId = row.sessionId ∧ entry.attempts = 1 ∧
      entry.accountingBasis = some .providerTokens ∧
        hold.sessionId = row.sessionId ∧ hold.agentId = Text.lower row.agentId ∧
        hold.accountingBasis = some .providerTokens)
      (.unavailable "token reservation correlation differs")
    match entry.tokenObservation with
    | none => throw (.unavailable "committed token receipt is invalid")
    | some observation =>
      ensure (observation.tokenUsageComplete ∧ observation.responseComplete)
        (.unavailable "committed native token usage is incomplete")
      ensure (observation.requestModel = some row.model ∧ row.providerUsageSource = "provider_usage_object" ∧
          observation.provider = some row.providerUsageProvider)
        (.unavailable "committed provider identity differs")
      ensure (countsAgree row observation) (.unavailable "committed provider token counts differ")
      return observation
  | _, _ => throw (.unavailable "token reservation correlation differs")

def tokenReceipts (store : Store) (guard : Guard) :
    List String → List Row → Except Failure (List (Row × TokenObservation))
  | _, [] => .ok []
  | seen, row :: rows => do
    let observation ← tokenReceipt store guard seen row
    let rest ← tokenReceipts store guard (row.guardReservationId :: seen) rows
    return (row, observation) :: rest

def tokenRows (store : Store) (monitor : Monitor) (guard : Guard) (selected : List Row) :
    Except Failure (List (Row × TokenObservation)) := do
  ensure (store.accountingBasis = .providerTokens) (.unavailable "provider-token accounting basis required")
  monitor.checkDomain store
  guard.checkBasis store
  ensure (selected.length ≤ 100000) (.unavailable "token accounting row limit exceeded")
  tokenReceipts store guard [] selected

def TokenObservation.amount (observation : TokenObservation) : Measure → ℚ
  | .costUsd => 0
  | .tokensTotal => ((observation.inputTokens.getD 0 + observation.outputTokens.getD 0 : Nat) : ℚ)
  | .cacheReadTokens => (observation.cacheReadTokens.getD 0 : ℚ)

def tokenTotals (rows : List (Row × TokenObservation)) (agentId : String) :
    Except Failure (Usage × Committed) :=
  let totals : Usage := fun dimension =>
    ((rows.filter fun entry => dimension.scope.covers agentId (Text.lower entry.1.agentId)).map
      (TokenObservation.amount ·.2 dimension.measure)).sum
  if ∃ dimension ∈ dimensions, totals dimension > 2 ^ 53 - 1 then
    .error (.unavailable "aggregate token counts exceed exact range")
  else .ok (totals, correlate (fun row => Text.lower row.agentId) (rows.map Prod.fst))

def recordedTokens (store : Store) (monitor : Monitor) (guard : Guard) (cutoff : Int) (agentId : String) :
    Except Failure (Usage × Committed) := do
  let rows ← tokenRows store monitor guard (since cutoff monitor.requests.rows)
  tokenTotals rows agentId

end TokenPak.Reservations
