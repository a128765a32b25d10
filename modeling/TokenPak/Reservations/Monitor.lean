import TokenPak.Library.Table
import TokenPak.Reservations.Contracts

/-! The usage database. Rows are only ever added; a unique index admits one row
for each reservation. Timestamps are local time, compared as text at whole
seconds. Local time has one offset from UTC here, so the order of the texts is
the order of the seconds; the source has no such guard, and a change to or from
daylight saving moves its window. -/

namespace TokenPak.Reservations
open Library
open SpendGuard (Time seconds)

/-- A row of `requests`; `none` is NULL or a value of another storage class. -/
structure Row where
  timestamp : Time
  model : String
  sessionId : String
  agentId : String
  estimatedCost : Option ℚ
  inputTokens : Option Int
  outputTokens : Option Int
  cacheReadTokens : Option Int
  cacheCreationTokens : Option Int
  guardReservationId : String
  guardLedgerKey : String
  guardUsageComplete : Bool
  guardPriceJson : Option String
  guardTokenUsageComplete : Bool
  providerInputTokens : Option Int
  providerOutputTokens : Option Int
  providerCacheReadTokens : Option Int
  providerCacheCreationTokens : Option Int
  providerUsageSource : String
  providerUsageProvider : String
  deriving DecidableEq

namespace Row

/-- The index entry of a row that carries a reservation. -/
def guardKey (row : Row) : Option (String × String) :=
  if row.guardReservationId = "" then none else some (row.guardLedgerKey, row.guardReservationId)

def amount (row : Row) : Measure → ℚ
  | .costUsd => row.estimatedCost.getD 0
  | .tokensTotal => (row.inputTokens.getD 0 : ℚ) + (row.outputTokens.getD 0 : ℚ)
  | .cacheReadTokens => row.cacheReadTokens.getD 0

/-- The row's text is not below that of the cutoff. -/
def Since (cutoff : Int) (row : Row) : Prop := cutoff ≤ row.timestamp / 1000000

instance (cutoff : Int) (row : Row) : Decidable (row.Since cutoff) := inferInstanceAs (Decidable (_ ≤ _))

def Measurable (row : Row) : Prop :=
  (∃ cost ∈ row.estimatedCost, 0 ≤ cost) ∧ (∃ tokens ∈ row.inputTokens, 0 ≤ tokens) ∧
    (∃ tokens ∈ row.outputTokens, 0 ≤ tokens) ∧ ∃ tokens ∈ row.cacheReadTokens, 0 ≤ tokens

instance (row : Row) : Decidable row.Measurable := inferInstanceAs (Decidable (_ ∧ _))

def CompleteFor (ledgerKey : String) (row : Row) : Prop :=
  row.guardLedgerKey = ledgerKey ∧ row.guardReservationId ≠ "" ∧ row.guardUsageComplete = true

instance (ledgerKey : String) (row : Row) : Decidable (row.CompleteFor ledgerKey) :=
  inferInstanceAs (Decidable (_ ∧ _))

end Row

/-- The whole second that the local-time text of the window's start shows. -/
def windowStart (windowSeconds : Int) (now : Time) : Int := (now - seconds windowSeconds) / 1000000

def since (cutoff : Int) (rows : List Row) : List Row := rows.filter (Row.Since cutoff)

/-- Checks of stored price receipts; they read nothing but their arguments. -/
structure Receipts where
  requireRow : String → String → Option Int → Option Int → Option Int → Option Int → Option ℚ → Bool

structure Domain where
  ledgerId : String
  auditStoreSha256 : Option String
  deriving DecidableEq

structure Monitor where
  domain : Option Domain
  requests : Table Row (String × String) Row.guardKey

abbrev Committed := String → Option (String × String)

/-- A dictionary built from rows in order: a later row replaces an earlier one. -/
def correlate (agent : Row → String) (rows : List Row) : Committed := fun id =>
  (rows.reverse.find? (·.guardReservationId = id)).map fun row => (row.sessionId, agent row)

namespace Monitor

def checkDomain (store : Store) (monitor : Monitor) : Except Failure Unit :=
  if monitor.domain = some ⟨store.ledgerId, some store.auditStoreSha256⟩ then .ok ()
  else .error (.unavailable "monitor belongs to another reservation store or generation")

def bindDomain (store : Store) (monitor : Monitor) : Except Failure Unit × Monitor :=
  let bound := if monitor.domain = some ⟨store.ledgerId, none⟩ then
      { monitor with domain := some ⟨store.ledgerId, some store.auditStoreSha256⟩ } else monitor
  match bound.checkDomain store with
  | .ok _ => (.ok (), bound)
  | .error failure => (.error failure, monitor)

end Monitor

def validateRecordedRows (cutoff : Int) (rows : List Row) : Except Failure Unit :=
  if ∃ row ∈ rows, row.Since cutoff ∧ ¬ row.Measurable then
    .error (.unavailable "recorded usage contains unmeasurable values")
  else if ∃ row ∈ rows, row.Since cutoff ∧ row.guardReservationId ≠ "" ∧ row.guardUsageComplete = false then
    .error (.unavailable "recorded reservation usage is incomplete")
  else .ok ()

def validateRecordedPrice (receipts : Receipts) (index : Nat) (row : Row) : Except Failure Unit :=
  if 100000 ≤ index then .error (.unavailable "recorded monetary pricing row limit exceeded")
  else if receipts.requireRow (row.guardPriceJson.getD "") row.model row.inputTokens row.outputTokens
      row.cacheReadTokens row.cacheCreationTokens row.estimatedCost then .ok ()
  else .error (.unavailable "recorded monetary pricing is invalid")

def validateRecordedPrices (receipts : Receipts) (cutoff : Int) (rows : List Row) : Except Failure Unit :=
  if ∃ row ∈ rows, row.Since cutoff ∧ ¬ ∃ text ∈ row.guardPriceJson, text.utf8ByteSize ≤ 16384 then
    .error (.unavailable "recorded monetary pricing is incomplete")
  else (since cutoff rows).zipIdx.forM fun (row, index) => validateRecordedPrice receipts index row

def queryRecordedUsage (cutoff : Int) (agentId : String) (rows : List Row) : Usage := fun dimension =>
  (((since cutoff rows).filter fun row =>
    dimension.scope.covers (Text.lower agentId) (sqlLower row.agentId)).map
    (Row.amount · dimension.measure)).sum

theorem Row.guardKey_eq_some {row : Row} {ledgerKey id : String} :
    row.guardKey = some (ledgerKey, id) ↔ id ≠ "" ∧ row.guardLedgerKey = ledgerKey ∧
      row.guardReservationId = id := by
  unfold Row.guardKey
  split
  next empty =>
    constructor
    · exact nofun
    · rintro ⟨named, _, rfl⟩
      exact absurd empty named
  next named =>
    constructor
    · intro keyed
      obtain ⟨rfl, rfl⟩ := Prod.mk.inj (Option.some.inj keyed)
      exact ⟨named, rfl, rfl⟩
    · rintro ⟨_, rfl, rfl⟩
      rfl

theorem validateRecordedRows_ok {cutoff : Int} {rows : List Row} {result : Unit}
    (valid : validateRecordedRows cutoff rows = .ok result) : ∀ row ∈ rows, row.Since cutoff →
      row.Measurable ∧ (row.guardReservationId ≠ "" → row.guardUsageComplete = true) := by
  unfold validateRecordedRows at valid
  split at valid
  next => cases valid
  next measurable =>
    split at valid
    next => cases valid
    next complete =>
      intro row member inside
      refine ⟨by_contra fun bad => measurable ⟨row, member, inside, bad⟩, fun named => ?_⟩
      exact Bool.eq_true_of_not_eq_false fun bad => complete ⟨row, member, inside, named, bad⟩

theorem Row.Measurable.amount_nonneg {row : Row} (measurable : row.Measurable) (measure : Measure) :
    0 ≤ row.amount measure := by
  obtain ⟨⟨cost, costs, paid⟩, ⟨input, inputs, read⟩, ⟨output, outputs, written⟩, cached, caches,
      hit⟩ :=
    measurable
  rw [Option.mem_def] at costs inputs outputs caches
  cases measure with
  | costUsd => simpa [Row.amount, costs] using paid
  | tokensTotal =>
    simp only [Row.amount, inputs, outputs, Option.getD_some]
    exact add_nonneg (Int.cast_nonneg read) (Int.cast_nonneg written)
  | cacheReadTokens => simpa [Row.amount, caches] using hit

theorem correlate_eq_none {agent : Row → String} {rows : List Row} {id : String} :
    correlate agent rows id = none ↔ ∀ row ∈ rows, row.guardReservationId ≠ id := by
  simp [correlate, List.find?_eq_none]

theorem correlate_eq_some {agent : Row → String} {rows : List Row} {id : String}
    {attribution : String × String}
    (found : correlate agent rows id = some attribution) :
    ∃ row ∈ rows, row.guardReservationId = id ∧ attribution = (row.sessionId, agent row) := by
  obtain ⟨row, search, rfl⟩ := Option.map_eq_some_iff.mp found
  exact ⟨row, List.mem_reverse.mp (List.mem_of_find?_eq_some search),
    by simpa using List.find?_some search, rfl⟩

end TokenPak.Reservations
