import TokenPak.Reservations.Admission

/-! The operations after admission: settlement against the committed row, release
of an unsent hold, and the coverage record of each request. -/

namespace TokenPak.Reservations
open Library Transaction
open SpendGuard (Time seconds)

def measuredCount (value : Option Int) (name : String) : Except Failure Nat :=
  match value with
  | none => .error (.invalid (name ++ " has an invalid numeric type"))
  | some count =>
      if 0 ≤ count then .ok count.toNat
        else .error (.invalid (name ++ " must be finite and nonnegative"))

/-- The usage of a row as a projection; it raises on unmeasurable values. -/
def Row.usage (row : Row) : Except Failure Projection :=
  match row.estimatedCost with
  | none => .error (.invalid "cost_usd has an invalid numeric type")
  | some cost =>
    if nonneg : 0 ≤ cost then do
      let input ← measuredCount row.inputTokens "input_tokens"
      let output ← measuredCount row.outputTokens "output_tokens"
      let cacheRead ← measuredCount row.cacheReadTokens "cache_read_tokens"
      return ⟨cost, input, output, cacheRead, nonneg⟩
    else .error (.invalid "cost_usd must be finite and nonnegative")

def Store.owns (store : Store) (ref : ReservationRef) : Prop :=
  ref.storePath = store.path ∧ ref.ledgerKey = store.ledgerKey

instance (store : Store) (ref : ReservationRef) : Decidable (store.owns ref) :=
  inferInstanceAs (Decidable (_ ∧ _))

def otherScope : Failure := .invalid "reservation reference belongs to another accounting scope"

/-- The durable row a settlement rests on, not the caller's word for it. -/
def committedRow (store : Store) (ref : ReservationRef) (actual : Projection) (monitor : Monitor) :
    Except Failure Row := do
  ensure (store.accountingBasis = .pricedUsage ∧ ref.accountingBasis = .pricedUsage)
    (.unavailable "token-only rows cannot settle priced usage")
  ensure (store.owns ref) otherScope
  monitor.checkDomain store
  match monitor.requests.rows.filter fun row => row.guardReservationId = ref.reservationId ∧
      row.guardLedgerKey = ref.ledgerKey ∧ row.guardUsageComplete = true with
  | [row] =>
    let usage ← row.usage
    ensure (usage = actual) (.unavailable "reservation settlement lacks matching committed usage")
    return row
  | _ => throw (.unavailable "reservation settlement lacks matching committed usage")

def Reservation.Standing (ledgerKey reservationId : String) (hold : Reservation) : Prop :=
  hold.reservationId = reservationId ∧ hold.Unresolved ledgerKey

instance (ledgerKey reservationId : String) (hold : Reservation) :
    Decidable (hold.Standing ledgerKey reservationId) :=
  inferInstanceAs (Decidable (_ ∧ _))

def Reservation.TokenStanding (ledgerKey reservationId : String) (hold : Reservation) : Prop :=
  hold.Standing ledgerKey reservationId ∧ hold.accountingBasis = some .providerTokens

instance (ledgerKey reservationId : String) (hold : Reservation) :
    Decidable (hold.TokenStanding ledgerKey reservationId) := inferInstanceAs (Decidable (_ ∧ _))

namespace Guard

def settleHold (selects : Reservation → Prop) [DecidablePred selects] (actual : Actual) (now : Time)
    (guard : Guard) :
    Guard :=
  let settle := fun hold : Reservation =>
    { hold with status := .settled, actual := some actual, settledAt := some now }
  { guard with reservations := guard.reservations.update selects settle fun _ => rfl }

def releaseHold (ledgerKey reservationId : String) (now : Time) (guard : Guard) : Guard :=
  let release := fun hold : Reservation => { hold with status := .released, settledAt := some now }
  let selects := fun hold : Reservation =>
    hold.reservationId = reservationId ∧ hold.ledgerKey = ledgerKey ∧ hold.status = .active
  { guard with reservations := guard.reservations.update selects release fun _ => rfl }

def markRecorded (selects : Coverage → Prop) [DecidablePred selects] (guard : Guard) : Guard :=
  let mark := fun entry : Coverage => { entry with state := .recorded }
  { guard with coverage := guard.coverage.update selects mark fun _ => rfl }

end Guard

def settleStatements (store : Store) (ref : ReservationRef) (actual : Projection) (row : Row) (now : Time) :
    Transaction Guard Failure Bool := do
  let guard ← get
  let hold := guard.reservations.rows.find? fun hold =>
    hold.reservationId = ref.reservationId ∧ hold.ledgerKey = store.ledgerKey
  require (hold.map (fun hold => (hold.sessionId, hold.agentId)) = some (row.sessionId, sqlLower row.agentId))
    (.unavailable "committed reservation attribution changed")
  if guard.reservations.count (Reservation.Standing store.ledgerKey ref.reservationId) = 0 then return false
  modify (Guard.settleHold (Reservation.Standing store.ledgerKey ref.reservationId)
    ⟨some actual.costUsd, actual.inputTokens + actual.outputTokens, actual.cacheReadTokens⟩ now)
  modify (Guard.generationChanged store.ledgerKey)
  modify (Guard.markRecorded fun entry =>
    entry.ledgerKey = store.ledgerKey ∧ entry.reservationId = ref.reservationId ∧ entry.attempts = 1)
  return true

/-- Settle after the commit of the monitor row read in `monitor`. -/
def settleAfterCommit (store : Store) (ref : ReservationRef) (actual : Projection) (now : Time)
    (monitor : Monitor)
    (guard : Guard) : Except Failure Bool × Guard :=
  match committedRow store ref actual monitor with
  | .error failure => (.error failure, guard)
  | .ok row => atomically (settleStatements store ref actual row now) guard

def releaseStatements (store : Store) (ref : ReservationRef) (now : Time) :
    Transaction Guard Failure Bool := do
  read (Guard.checkBasis store)
  require (ref.accountingBasis = store.accountingBasis)
    (.unavailable "reservation release accounting basis differs")
  let guard ← get
  require (¬ (store.accountingBasis = .providerTokens ∧ ∃ entry ∈ guard.coverage.rows,
      entry.ledgerKey = store.ledgerKey ∧ entry.reservationId = ref.reservationId ∧ 0 < entry.attempts))
    (.unavailable "sent token reservation cannot be released as unsent")
  if guard.reservations.count (fun hold => hold.reservationId = ref.reservationId ∧
    hold.ledgerKey = store.ledgerKey ∧
      hold.status = .active) = 0 then return false
  modify (Guard.releaseHold store.ledgerKey ref.reservationId now)
  modify (Guard.generationChanged store.ledgerKey)
  return true

def releaseUnsent (store : Store) (ref : ReservationRef) (now : Time) (guard : Guard) :
    Except Failure Bool × Guard :=
  if store.owns ref then atomically (releaseStatements store ref now) guard else (.error otherScope, guard)

def beginStatements (store : Store) (sessionId ownerInstanceId coverageId : String)
    (windowSeconds : Int) (now : Time) :
    Transaction Guard Failure Unit := do
  bindBasis store
  maintainHistory store windowSeconds now
  let guard ← get
  match guard.coverage.insert
      ⟨coverageId, store.ledgerKey, ownerInstanceId, sessionId, now, none, 0, "", .preflight, none,
        some store.accountingBasis, none⟩ with
  | none => throw .integrity
  | some coverage => set { guard with coverage }
  modify (Guard.generationChanged store.ledgerKey)

def beginRequest (store : Store) (sessionId ownerInstanceId coverageId : String)
    (windowSeconds : Int) (now : Time)
    (guard : Guard) : Except Failure Unit × Guard :=
  match (do identity sessionId "session_id" true
            identity ownerInstanceId "owner_instance_id" false
            number windowSeconds "window_seconds" : Except Failure Unit) with
  | .error failure => (.error failure, guard)
  | .ok _ => atomically (beginStatements store sessionId ownerInstanceId coverageId windowSeconds now) guard

/-- No two coverage rows of one ledger name the same reservation. -/
def Guard.CoverageIndexed (guard : Guard) : Prop :=
  ((guard.coverage.rows.filter (·.reservationId ≠ "")).map fun entry =>
    (entry.ledgerKey, entry.reservationId)).Nodup

instance (guard : Guard) : Decidable guard.CoverageIndexed := inferInstanceAs (Decidable (List.Nodup _))

def updateCoverage (store : Store) (coverageId : String) (change : Coverage → Coverage)
    (keeps : ∀ entry, (change entry).primaryKey = entry.primaryKey) : Transaction Guard Failure Unit := do
  let guard ← get
  let selects := fun entry : Coverage => entry.coverageId = coverageId ∧ entry.ledgerKey = store.ledgerKey
  let changed : Guard := { guard with coverage := guard.coverage.update selects change keeps }
  require changed.CoverageIndexed .integrity
  require (guard.coverage.count selects = 1) (.unavailable "request coverage record is unavailable")
  set (changed.generationChanged store.ledgerKey)

def attemptedSend (store : Store) (coverageId : String) (ref : Option ReservationRef)
    (workload : Option String)
    (guard : Guard) : Except Failure Unit × Guard :=
  if ∀ held ∈ ref, store.owns held then
    atomically (updateCoverage store coverageId (fun entry =>
      { entry with attempts := entry.attempts + 1, reservationId := (ref.map ReservationRef.reservationId).getD "",
                   state := .sending, workloadJson := workload }) fun _ => rfl) guard
  else (.error otherScope, guard)

def recordWorkload (store : Store) (coverageId workload : String) : Guard → Except Failure Unit × Guard :=
  atomically (updateCoverage store coverageId (fun entry =>
    { entry with workloadJson := some workload }) fun _ => rfl)

def recordTokens (store : Store) (coverageId : String) (observation : TokenObservation) :
    Guard → Except Failure Unit × Guard :=
  atomically (updateCoverage store coverageId (fun entry =>
    { entry with tokenObservation := some observation }) fun _ => rfl)

/-- A response that ends before its row is committed still awaits usage. -/
def finishRequest (store : Store) (coverageId : String) (now : Time) : Guard → Except Failure Unit × Guard :=
  atomically (updateCoverage store coverageId (fun entry =>
    { entry with endedAt := some now
                 state := if entry.attempts = 0 then .unsent
                   else if entry.state = .recorded then .recorded else .awaitingUsage }) fun _ => rfl)

def settleTokenStatements (store : Store) (ref : ReservationRef) (now : Time) (monitor : Monitor) :
    Transaction Guard Failure Bool := do
  let guard ← get
  let rows ← read fun guard => tokenRows store monitor guard (monitor.requests.rows.filter fun row =>
    row.guardReservationId = ref.reservationId ∧ row.guardLedgerKey = store.ledgerKey)
  match rows with
  | [(_, observation)] =>
    if guard.reservations.count (Reservation.TokenStanding store.ledgerKey ref.reservationId) =
      0 then return false
    modify (Guard.settleHold (Reservation.TokenStanding store.ledgerKey ref.reservationId)
      ⟨none, observation.inputTokens.getD 0 + observation.outputTokens.getD 0, observation.cacheReadTokens.getD 0⟩ now)
    modify (Guard.markRecorded fun entry => entry.ledgerKey = store.ledgerKey ∧
      entry.reservationId = ref.reservationId ∧ entry.attempts = 1 ∧ entry.accountingBasis = some .providerTokens)
    modify (Guard.generationChanged store.ledgerKey)
    return true
  | _ => throw (.unavailable "token settlement lacks matching committed usage")

def settleTokens (store : Store) (ref : ReservationRef) (now : Time) (monitor : Monitor) (guard : Guard) :
    Except Failure Bool × Guard :=
  if ref.accountingBasis = .providerTokens ∧ store.owns ref then
    atomically (settleTokenStatements store ref now monitor) guard
  else (.error (.unavailable "token settlement accounting scope differs"), guard)

end TokenPak.Reservations
