import TokenPak.Reservations.Settlement

/-! The native diagnostic snapshot: the second reader of recorded and pending
usage. It takes no lock. The guard is read first, the monitor after it, and the
generation once more at the end. -/

namespace TokenPak.Reservations
open Library
open SpendGuard (Time seconds)

/-- Why a snapshot is no evidence for the guard, in the order they are reported. -/
inductive ReasonCode where
  | forwardUsageUnresolved | ledgerCoverageIncomplete | ledgerPricingIncomplete | requestInProgress
  | reservationCoverageIncomplete | sessionAgentContradiction | sessionUnobserved
  deriving DecidableEq

def reasonCodes : List ReasonCode :=
  [.forwardUsageUnresolved, .ledgerCoverageIncomplete, .ledgerPricingIncomplete, .requestInProgress,
    .reservationCoverageIncomplete, .sessionAgentContradiction, .sessionUnobserved]

structure Snapshot where
  observedAt : Time
  windowSeconds : Int
  ledgerScopeSha256 : String
  accountingGeneration : Nat
  sessionObserved : Bool
  agentCapsApplicable : Bool
  agentAttributionAvailable : Bool
  recordedUsage : Dimension → Option ℚ
  pendingProjectedUsage : Dimension → Option ℚ
  expiredPendingCount : Nat
  componentsMayOverlap : Bool
  guardEvidenceEligible : Bool
  reasonCodes : List ReasonCode

def Guard.recentCoverage (ledgerKey : String) (windowSeconds : Int) (now : Time) (guard : Guard) :
    List Coverage :=
  guard.coverage.rows.filter fun entry =>
    entry.ledgerKey = ledgerKey ∧ ∀ time ∈ entry.endedAt, now - seconds windowSeconds ≤ time

def sessionAgents (sessionId : String) (rows : List Row) : List String :=
  ((rows.filter (·.sessionId = sessionId)).map fun row => sqlLower row.agentId).dedup

def sessionAgent (sessionId : String) (rows : List Row) : Option String :=
  match sessionAgents sessionId rows with
  | [agent] => some agent
  | _ => none

/-- Reservations with complete usage among the rows of the window. -/
def committedSince (ledgerKey : String) (cutoff : Int) (rows : List Row) : Committed :=
  correlate (fun row => sqlLower row.agentId)
    ((since cutoff rows).filter fun row => row.guardLedgerKey = ledgerKey ∧ row.guardUsageComplete = true)

def Guard.known (ledgerKey reservationId : String) (guard : Guard) : Option (String × String) :=
  (guard.reservations.rows.find? fun hold => hold.ledgerKey = ledgerKey ∧
    hold.reservationId = reservationId).map
    fun hold => (hold.sessionId, hold.agentId)

def ReasonCode.Applies (store : Store) (receipts : Receipts) (sessionId : String)
    (windowSeconds : Int) (now : Time)
    (view : Guard) (rows : List Row) : ReasonCode → Prop
  | .forwardUsageUnresolved => ∃ request ∈ view.recentCoverage store.ledgerKey windowSeconds now,
      request.endedAt.isSome ∧ request.attempts ≠ 0 ∧ ¬ (request.attempts = 1 ∧
        (committedSince store.ledgerKey (windowStart windowSeconds now) rows request.reservationId).isSome)
  | .ledgerCoverageIncomplete =>
      ∃ row ∈ since (windowStart windowSeconds now) rows, row.guardReservationId = "" ∨
      (∀ request ∈ view.recentCoverage store.ledgerKey windowSeconds now, request.attempts = 1 →
        request.reservationId ≠ row.guardReservationId) ∨
      view.known store.ledgerKey row.guardReservationId ≠ some (row.sessionId, sqlLower row.agentId) ∨
      row.guardLedgerKey ≠ store.ledgerKey ∨ row.guardUsageComplete = false
  | .ledgerPricingIncomplete =>
      (validateRecordedPrices receipts (windowStart windowSeconds now) rows).isOk = false
  | .requestInProgress =>
      ∃ request ∈ view.recentCoverage store.ledgerKey windowSeconds now, request.endedAt = none
  | .reservationCoverageIncomplete => ∃ hold ∈ view.reservations.rows, hold.Unresolved store.ledgerKey ∧
      ∀ entry ∈ view.coverage.rows,
        ¬ (entry.ledgerKey = store.ledgerKey ∧ entry.reservationId = hold.reservationId)
  | .sessionAgentContradiction =>
      1 < (sessionAgents sessionId (since (windowStart windowSeconds now) rows)).length
  | .sessionUnobserved => sessionAgents sessionId (since (windowStart windowSeconds now) rows) = []

instance (store : Store) (receipts : Receipts) (sessionId : String) (windowSeconds : Int)
    (now : Time) (view : Guard)
    (rows : List Row) :
    DecidablePred (ReasonCode.Applies store receipts sessionId windowSeconds now view rows)
  | .forwardUsageUnresolved => inferInstanceAs (Decidable (∃ request ∈ _, _))
  | .ledgerCoverageIncomplete => inferInstanceAs (Decidable (∃ row ∈ _, _))
  | .ledgerPricingIncomplete => inferInstanceAs (Decidable (_ = _))
  | .requestInProgress => inferInstanceAs (Decidable (∃ request ∈ _, _))
  | .reservationCoverageIncomplete => inferInstanceAs (Decidable (∃ hold ∈ _, _))
  | .sessionAgentContradiction => inferInstanceAs (Decidable (_ < _))
  | .sessionUnobserved => inferInstanceAs (Decidable (_ = _))

def shown (agent : String) (usage : Usage) (dimension : Dimension) : Option ℚ :=
  if dimension.scope = .agent ∧ agent = "" then none else some (usage dimension)

/-- A view of `view` and of the monitor read after it, fenced by a last look at the
generation in `fence`. The workload observation is not part of it. -/
def snapshot (store : Store) (receipts : Receipts) (sessionId : String) (windowSeconds : Int)
    (now : Time) (view : Guard)
    (monitor : Monitor) (fence : Guard) : Except Failure Snapshot := do
  ensure (store.accountingBasis = .pricedUsage)
    (.unavailable "token-only accounting is not priced guard evidence")
  identity sessionId "session_id" false
  number windowSeconds "window_seconds"
  ensure (windowSeconds ≠ 0) (.invalid "window must be positive")
  let cutoff := windowStart windowSeconds now
  let rows := monitor.requests.rows
  let generation ← view.readGeneration store.ledgerKey
  ensure ((view.recentCoverage store.ledgerKey windowSeconds now).length ≤ 100000)
    (.unavailable "snapshot coverage limit exceeded")
  monitor.checkDomain store
  let agents := sessionAgents sessionId (since cutoff rows)
  let agent := (sessionAgent sessionId (since cutoff rows)).getD ""
  ensure ((since cutoff rows).length ≤ 100000) (.unavailable "snapshot row limit exceeded")
  validateRecordedRows cutoff rows
  let recorded := queryRecordedUsage cutoff agent rows
  let pending ← active store agent now (committedSince store.ledgerKey cutoff rows) view
  let latest ← fence.readGeneration store.ledgerKey
  ensure (latest = generation) (.unavailable "accounting changed during observation")
  let reasons := Reservations.reasonCodes.filter
    (ReasonCode.Applies store receipts sessionId windowSeconds now view rows)
  return { observedAt := now
           windowSeconds := windowSeconds
           ledgerScopeSha256 := store.ledgerKey
           accountingGeneration := generation
           sessionObserved := agents ≠ []
           agentCapsApplicable := agent ≠ ""
           agentAttributionAvailable := agent ≠ ""
           recordedUsage := shown agent recorded
           pendingProjectedUsage := shown agent pending
           expiredPendingCount := 0
           componentsMayOverlap := false
           guardEvidenceEligible := reasons = []
           reasonCodes := reasons }

end TokenPak.Reservations
