import TokenPak.Reservations.Settlement

/-! Requests of any number of processes over one guard store and one monitor.
A request opens its coverage, is admitted under the write lock, marks each send,
hands one usage row to the monitor's queue and closes. Everything between two
transactions may interleave; a settlement may come late or never. -/

namespace TokenPak.Reservations
open Library
open SpendGuard (Time seconds)

inductive UsageRow where
  | unlogged
  | queued (row : Row)
  | committed
  deriving DecidableEq

structure Accounting where
  attribution : Attribution
  ownerInstanceId : String
  coverageId : String
  ref : Option ReservationRef
  attempts : Nat
  usage : UsageRow
  closing : Bool
  finished : Bool

/-- An admission that holds the write lock. The monitor is read after the lock is
taken and the clock read. -/
structure Reading where
  request : Nat
  call : Call
  reservationId : String
  now : Time
  monitor : Option Monitor

structure World where
  clock : Time
  guard : Guard
  monitor : Monitor
  requests : Nat → Option Accounting
  lock : Option Reading
  /-- Every random identifier drawn so far. -/
  issued : List String

inductive Action where
  | tick (later : Time)
  | bindDomain
  | begin (request : Nat) (attribution : Attribution) (ownerInstanceId coverageId : String) (windowSeconds : Int)
  | claim (request : Nat) (call : Call) (reservationId : String)
  | look
  | decide (pruning : Time)
  | abandon
  | send (request : Nat) (workload : Option String)
  | sendUnrecorded (request : Nat) (workload : Option String)
  | recordWorkload (request : Nat) (workload : String)
  | recordTokens (request : Nat) (observation : TokenObservation)
  | log (request : Nat) (row : Row)
  | commit (request : Nat)
  | settle (ref : ReservationRef) (actual : Projection) (seen : Monitor)
  | settleTokens (ref : ReservationRef)
  | close (request : Nat)
  | release (request : Nat)
  | finish (request : Nat)

namespace World

def setRequest (world : World) (request : Nat) (accounting : Accounting) : World :=
  { world with requests := Function.update world.requests request (some accounting) }

/-- The row a request hands to the monitor: its own attribution and reservation,
and completeness only for a single send under the basis of the store. -/
structure RowOf (store : Store) (accounting : Accounting) (clock : Time) (row : Row) : Prop where
  timestamp : row.timestamp = clock
  sessionId : row.sessionId = accounting.attribution.sessionId
  agentId : row.agentId = accounting.attribution.agentId
  reservationId : row.guardReservationId = (accounting.ref.map ReservationRef.reservationId).getD ""
  ledgerKey : row.guardLedgerKey = (accounting.ref.map ReservationRef.ledgerKey).getD ""
  complete : row.guardUsageComplete = true →
    store.accountingBasis = .pricedUsage ∧ accounting.ref.isSome ∧ accounting.attempts = 1
  tokenComplete : row.guardTokenUsageComplete = true →
    store.accountingBasis = .providerTokens ∧ accounting.ref.isSome ∧ accounting.attempts = 1

/-- The reference a finished admission leaves with its request. -/
def admittedRef : Except Failure Outcome → Option ReservationRef
  | .ok (.admitted ref) => some ref
  | _ => none

/-- One step of the system. An operation that raises changes nothing and needs no
step of its own. -/
inductive Step (store : Store) (receipts : Receipts) : World → Action → World → Prop
  | tick {world : World} {later : Time} (forward : world.clock ≤ later) :
      Step store receipts world (.tick later) { world with clock := later }
  | bindDomain {world : World} :
      Step store receipts world .bindDomain { world with monitor := (world.monitor.bindDomain store).2 }
  | begin {world : World} {request : Nat} {attribution : Attribution} {ownerInstanceId coverageId : String}
      {windowSeconds : Int} {guard : Guard} (bound : world.monitor.checkDomain store = .ok ())
      (free : world.lock = none) (new : world.requests request = none)
      (fresh : coverageId ∉ world.issued)
      (begun : beginRequest store attribution.sessionId ownerInstanceId coverageId windowSeconds world.clock world.guard =
        (.ok (), guard)) :
      Step store receipts world (.begin request attribution ownerInstanceId coverageId windowSeconds)
        { world.setRequest request ⟨attribution, ownerInstanceId, coverageId, none, 0, .unlogged, false, false⟩ with
          guard := guard, issued := coverageId :: world.issued }
  | claim {world : World} {request : Nat} {call : Call} {reservationId : String} {accounting : Accounting}
      (bound : world.monitor.checkDomain store = .ok ()) (free : world.lock = none)
      (held : world.requests request = some accounting) (unreserved : accounting.ref = none)
      (unsent : accounting.attempts = 0) (unlogged : accounting.usage = .unlogged)
        (going : accounting.closing = false)
      (session : call.sessionId = accounting.attribution.sessionId)
      (agent : call.agentId = accounting.attribution.agentId)
        (owner : call.ownerInstanceId = accounting.ownerInstanceId)
      (named : reservationId ≠ "") (fresh : reservationId ∉ world.issued) :
      Step store receipts world (.claim request call reservationId)
        { world with lock := some ⟨request, call, reservationId, world.clock, none⟩
                     issued := reservationId :: world.issued }
  | look {world : World} {reading : Reading} (locked : world.lock = some reading) (blind : reading.monitor = none) :
      Step store receipts world .look { world with lock := some { reading with monitor := some world.monitor } }
  | decide {world : World} {reading : Reading} {pruning : Time} {monitor : Monitor} {accounting : Accounting}
      {outcome : Except Failure Outcome} {guard : Guard} (locked : world.lock = some reading)
      (looked : reading.monitor = some monitor) (held : world.requests reading.request = some accounting)
      (after : reading.now ≤ pruning) (before : pruning ≤ world.clock)
      (reserved : reserve store receipts reading.call reading.reservationId reading.now pruning monitor world.guard =
        (outcome, guard)) :
      Step store receipts world (.decide pruning)
        { world.setRequest reading.request { accounting with ref := admittedRef outcome } with
          guard := guard, lock := none }
  | abandon {world : World} {reading : Reading} (locked : world.lock = some reading) :
      Step store receipts world .abandon { world with lock := none }
  | send {world : World} {request : Nat} {workload : Option String} {accounting : Accounting} {guard : Guard}
      (free : world.lock = none) (held : world.requests request = some accounting)
        (going : accounting.closing = false)
      (unlogged : accounting.usage = .unlogged)
      (tokens : store.accountingBasis = .providerTokens → accounting.attempts = 0 ∧ accounting.ref.isSome)
      (marked : attemptedSend store accounting.coverageId accounting.ref workload world.guard =
        (.ok (), guard)) :
      Step store receipts world (.send request workload)
        { world.setRequest request { accounting with attempts := accounting.attempts + 1 } with guard := guard }
  | sendUnrecorded {world : World} {request : Nat} {workload : Option String} {accounting : Accounting} {guard : Guard}
      (free : world.lock = none) (held : world.requests request = some accounting)
        (going : accounting.closing = false)
      (tokens : store.accountingBasis = .providerTokens) (unsent : accounting.attempts = 0)
        (reserved : accounting.ref.isSome)
      (marked : attemptedSend store accounting.coverageId accounting.ref workload world.guard =
        (.ok (), guard)) :
      Step store receipts world (.sendUnrecorded request workload) { world with guard := guard }
  | recordWorkload {world : World} {request : Nat} {workload : String} {accounting : Accounting} {guard : Guard}
      (free : world.lock = none) (held : world.requests request = some accounting)
      (stored : Reservations.recordWorkload store accounting.coverageId workload world.guard =
        (.ok (), guard)) :
      Step store receipts world (.recordWorkload request workload) { world with guard := guard }
  | recordTokens {world : World} {request : Nat} {observation : TokenObservation} {accounting : Accounting} {guard : Guard}
      (free : world.lock = none) (held : world.requests request = some accounting)
      (stored : Reservations.recordTokens store accounting.coverageId observation world.guard =
        (.ok (), guard)) :
      Step store receipts world (.recordTokens request observation) { world with guard := guard }
  | log {world : World} {request : Nat} {row : Row} {accounting : Accounting}
      (held : world.requests request = some accounting) (going : accounting.closing = false)
        (sent : 0 < accounting.attempts)
      (unlogged : accounting.usage = .unlogged) (own : RowOf store accounting world.clock row) :
      Step store receipts world (.log request row)
        (world.setRequest request { accounting with usage := .queued row })
  | commit {world : World} {request : Nat} {row : Row} {accounting : Accounting}
      {requests : Table Row (String × String) Row.guardKey} (held : world.requests request = some accounting)
      (queued : accounting.usage = .queued row)
        (inserted : world.monitor.requests.insert row = some requests) :
      Step store receipts world (.commit request)
        { world.setRequest request { accounting with usage := .committed } with
          monitor := { world.monitor with requests := requests } }
  | settle {world : World} {ref : ReservationRef} {actual : Projection} {seen : Monitor} (free : world.lock = none)
      (named : ref.reservationId ≠ "") (earlier : seen.requests.rows <+: world.monitor.requests.rows) :
      Step store receipts world (.settle ref actual seen)
        { world with guard := (settleAfterCommit store ref actual world.clock seen world.guard).2 }
  | settleTokens {world : World} {ref : ReservationRef} (free : world.lock = none) :
      Step store receipts world (.settleTokens ref)
        { world with guard := (Reservations.settleTokens store ref world.clock world.monitor world.guard).2 }
  | close {world : World} {request : Nat} {accounting : Accounting} (held : world.requests request = some accounting) :
      Step store receipts world (.close request)
        (world.setRequest request { accounting with closing := true })
  | release {world : World} {request : Nat} {accounting : Accounting} {ref : ReservationRef} (free : world.lock = none)
      (held : world.requests request = some accounting) (closing : accounting.closing = true)
      (reserved : accounting.ref = some ref) (unsent : accounting.attempts = 0) :
      Step store receipts world (.release request)
        { world with guard := (releaseUnsent store ref world.clock world.guard).2 }
  | finish {world : World} {request : Nat} {accounting : Accounting} {guard : Guard} (free : world.lock = none)
      (held : world.requests request = some accounting) (closing : accounting.closing = true)
      (unfinished : accounting.finished = false)
      (ended : finishRequest store accounting.coverageId world.clock world.guard = (.ok (), guard)) :
      Step store receipts world (.finish request)
        { world.setRequest request { accounting with finished := true } with guard := guard }

def Reaches (store : Store) (receipts : Receipts) (rule : World → Action → Prop) : World → World → Prop :=
  Relation.ReflTransGen fun before after => ∃ action,
    rule before action ∧ Step store receipts before action after

/-- Before any request, over an empty store and a monitor without rows. -/
def fresh (clock : Time) (domain : Option Domain) : World :=
  ⟨clock, .empty, ⟨domain, .empty⟩, fun _ => none, none, []⟩

end World
end TokenPak.Reservations
