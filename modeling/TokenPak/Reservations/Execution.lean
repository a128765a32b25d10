import TokenPak.Reservations.Requests

/-! The step relation, executed. An action that is not enabled gives no world;
what is performed is a step, so a played schedule is a run. -/

namespace TokenPak.Reservations
open Library
open SpendGuard (Time seconds)

/-- The store a transaction that did not raise leaves. -/
def succeeded : Except Failure Unit × Guard → Option Guard
  | (.ok _, guard) => some guard
  | (.error _, _) => none

theorem succeeded_eq_some {result : Except Failure Unit × Guard} {guard : Guard} :
    succeeded result = some guard ↔ result = (.ok (), guard) := by
  obtain ⟨outcome, after⟩ := result
  cases outcome with
  | ok => simp [succeeded]
  | error => simp [succeeded]

namespace World
variable (store : Store) (receipts : Receipts)

theorem rowOf_iff {accounting : Accounting} {clock : Time} {row : Row} : RowOf store accounting clock row ↔
    row.timestamp = clock ∧ row.sessionId = accounting.attribution.sessionId ∧
      row.agentId = accounting.attribution.agentId ∧
      row.guardReservationId = (accounting.ref.map ReservationRef.reservationId).getD "" ∧
      row.guardLedgerKey = (accounting.ref.map ReservationRef.ledgerKey).getD "" ∧
      (row.guardUsageComplete = true →
        store.accountingBasis = .pricedUsage ∧ accounting.ref.isSome ∧ accounting.attempts = 1) ∧
      (row.guardTokenUsageComplete = true →
        store.accountingBasis = .providerTokens ∧ accounting.ref.isSome ∧ accounting.attempts = 1) :=
  ⟨fun ⟨a, b, c, d, e, f, g⟩ => ⟨a, b, c, d, e, f, g⟩, fun ⟨a, b, c, d, e, f, g⟩ => ⟨a, b, c, d, e, f, g⟩⟩

instance (accounting : Accounting) (clock : Time) (row : Row) :
    Decidable (RowOf store accounting clock row) :=
  decidable_of_iff' _ (rowOf_iff store)

/-- The monitor is bound to the store and no admission holds the lock. -/
def Ready (world : World) : Prop :=
  world.monitor.domain = some ⟨store.ledgerId, some store.auditStoreSha256⟩ ∧ world.lock.isNone

instance (world : World) : Decidable (Ready store world) := inferInstanceAs (Decidable (_ ∧ _))

theorem Ready.bound {world : World} (ready : Ready store world) : world.monitor.checkDomain store = .ok () :=
  if_pos ready.1

theorem Ready.free {world : World} (ready : Ready store world) : world.lock = none :=
  Option.isNone_iff_eq_none.mp ready.2

/-- The world after an action, if the action is enabled. -/
def perform (world : World) : Action → Option World
  | .tick later => if world.clock ≤ later then some { world with clock := later } else none
  | .bindDomain => some { world with monitor := (world.monitor.bindDomain store).2 }
  | .begin request attribution ownerInstanceId coverageId windowSeconds =>
    if Ready store world ∧ (world.requests request).isNone ∧ coverageId ∉ world.issued then
      (succeeded (beginRequest store attribution.sessionId ownerInstanceId coverageId windowSeconds world.clock
        world.guard)).map fun guard =>
          { world.setRequest request ⟨attribution, ownerInstanceId, coverageId, none, 0, .unlogged, false, false⟩ with
            guard := guard, issued := coverageId :: world.issued }
    else none
  | .claim request call reservationId => (world.requests request).bind fun accounting =>
    if Ready store world ∧ accounting.ref = none ∧ accounting.attempts = 0 ∧ accounting.usage = .unlogged ∧
        accounting.closing = false ∧ call.sessionId = accounting.attribution.sessionId ∧
        call.agentId = accounting.attribution.agentId ∧ call.ownerInstanceId = accounting.ownerInstanceId ∧
        reservationId ≠ "" ∧ reservationId ∉ world.issued then
      some { world with lock := some ⟨request, call, reservationId, world.clock, none⟩
                        issued := reservationId :: world.issued }
    else none
  | .look => world.lock.bind fun reading =>
    if reading.monitor.isNone then some { world with lock := some { reading with monitor := some world.monitor } } else none
  | .decide pruning => world.lock.bind fun reading => reading.monitor.bind fun monitor =>
    (world.requests reading.request).bind fun accounting =>
      if reading.now ≤ pruning ∧ pruning ≤ world.clock then
        let result := reserve store receipts reading.call reading.reservationId reading.now pruning monitor world.guard
        some { world.setRequest reading.request { accounting with ref := admittedRef result.1 } with
          guard := result.2, lock := none }
      else none
  | .abandon => if world.lock.isSome then some { world with lock := none } else none
  | .send request workload => (world.requests request).bind fun accounting =>
    if world.lock.isNone ∧ accounting.closing = false ∧ accounting.usage = .unlogged ∧
        (store.accountingBasis = .providerTokens → accounting.attempts = 0 ∧ accounting.ref.isSome) then
      (succeeded (attemptedSend store accounting.coverageId accounting.ref workload world.guard)).map fun guard =>
        { world.setRequest request { accounting with attempts := accounting.attempts + 1 } with guard := guard }
    else none
  | .sendUnrecorded request workload => (world.requests request).bind fun accounting =>
    if world.lock.isNone ∧ accounting.closing = false ∧ store.accountingBasis = .providerTokens ∧
        accounting.attempts = 0 ∧ accounting.ref.isSome then
      (succeeded (attemptedSend store accounting.coverageId accounting.ref workload world.guard)).map fun guard =>
        { world with guard := guard }
    else none
  | .recordWorkload request workload => (world.requests request).bind fun accounting =>
    if world.lock.isNone then
      (succeeded (Reservations.recordWorkload store accounting.coverageId workload world.guard)).map fun guard =>
        { world with guard := guard }
    else none
  | .recordTokens request observation => (world.requests request).bind fun accounting =>
    if world.lock.isNone then
      (succeeded (Reservations.recordTokens store accounting.coverageId observation world.guard)).map fun guard =>
        { world with guard := guard }
    else none
  | .log request row => (world.requests request).bind fun accounting =>
    if accounting.closing = false ∧ 0 < accounting.attempts ∧ accounting.usage = .unlogged ∧
        RowOf store accounting world.clock row then
      some (world.setRequest request { accounting with usage := .queued row })
    else none
  | .commit request => (world.requests request).bind fun accounting =>
    match accounting.usage with
    | .queued row => (world.monitor.requests.insert row).map fun requests =>
      { world.setRequest request { accounting with usage := .committed } with
        monitor := { world.monitor with requests := requests } }
    | _ => none
  | .settle ref actual seen =>
    if world.lock.isNone ∧ ref.reservationId ≠ "" ∧ seen.requests.rows <+: world.monitor.requests.rows then
      some { world with guard := (settleAfterCommit store ref actual world.clock seen world.guard).2 }
    else none
  | .settleTokens ref =>
    if world.lock.isNone then
      some { world with guard := (Reservations.settleTokens store ref world.clock world.monitor world.guard).2 }
    else none
  | .close request => (world.requests request).map fun accounting =>
    world.setRequest request { accounting with closing := true }
  | .release request => (world.requests request).bind fun accounting => accounting.ref.bind fun ref =>
    if world.lock.isNone ∧ accounting.closing = true ∧ accounting.attempts = 0 then
      some { world with guard := (releaseUnsent store ref world.clock world.guard).2 }
    else none
  | .finish request => (world.requests request).bind fun accounting =>
    if world.lock.isNone ∧ accounting.closing = true ∧ accounting.finished = false then
      (succeeded (finishRequest store accounting.coverageId world.clock world.guard)).map fun guard =>
        { world.setRequest request { accounting with finished := true } with guard := guard }
    else none

variable {store receipts}

theorem enabled {α : Type} {condition : Prop} [Decidable condition] {result : Option α} {after : α}
    (done : (if condition then result else none) = some after) : condition ∧ result = some after :=
  Option.ite_none_right_eq_some.mp done

theorem perform_step {world after : World} {action : Action}
    (done : perform store receipts world action = some after) :
    Step store receipts world action after := by
  cases action with
  | tick later =>
    obtain ⟨forward, result⟩ := enabled done
    cases result
    exact .tick forward
  | bindDomain =>
    cases done
    exact .bindDomain
  | begin request attribution ownerInstanceId coverageId windowSeconds =>
    obtain ⟨⟨ready, new, fresh⟩, result⟩ := enabled done
    obtain ⟨guard, begun, rfl⟩ := Option.map_eq_some_iff.mp result
    exact .begin ready.bound ready.free (Option.isNone_iff_eq_none.mp new) fresh (succeeded_eq_some.mp begun)
  | claim request call reservationId =>
    obtain ⟨accounting, held, performed⟩ := Option.bind_eq_some_iff.mp done
    obtain ⟨⟨ready, unreserved, unsent, unlogged, going, session, agent, owner, named, fresh⟩,
        result⟩ :=
      enabled performed
    cases result
    exact .claim ready.bound ready.free held unreserved unsent unlogged going session agent owner named fresh
  | look =>
    obtain ⟨reading, locked, performed⟩ := Option.bind_eq_some_iff.mp done
    obtain ⟨blind, result⟩ := enabled performed
    cases result
    exact .look locked (Option.isNone_iff_eq_none.mp blind)
  | decide pruning =>
    obtain ⟨reading, locked, performed⟩ := Option.bind_eq_some_iff.mp done
    obtain ⟨monitor, looked, performed⟩ := Option.bind_eq_some_iff.mp performed
    obtain ⟨accounting, held, performed⟩ := Option.bind_eq_some_iff.mp performed
    obtain ⟨⟨later, before⟩, result⟩ := enabled performed
    cases result
    exact .decide locked looked held later before rfl
  | abandon =>
    obtain ⟨locked, result⟩ := enabled done
    cases result
    obtain ⟨reading, locked⟩ := Option.isSome_iff_exists.mp locked
    exact .abandon locked
  | send request workload =>
    obtain ⟨accounting, held, performed⟩ := Option.bind_eq_some_iff.mp done
    obtain ⟨⟨free, going, unlogged, tokens⟩, result⟩ := enabled performed
    obtain ⟨guard, marked, rfl⟩ := Option.map_eq_some_iff.mp result
    exact .send (Option.isNone_iff_eq_none.mp free) held going unlogged tokens (succeeded_eq_some.mp marked)
  | sendUnrecorded request workload =>
    obtain ⟨accounting, held, performed⟩ := Option.bind_eq_some_iff.mp done
    obtain ⟨⟨free, going, tokens, unsent, reserved⟩, result⟩ := enabled performed
    obtain ⟨guard, marked, rfl⟩ := Option.map_eq_some_iff.mp result
    exact .sendUnrecorded (Option.isNone_iff_eq_none.mp free) held going tokens unsent reserved (succeeded_eq_some.mp marked)
  | recordWorkload request workload =>
    obtain ⟨accounting, held, performed⟩ := Option.bind_eq_some_iff.mp done
    obtain ⟨free, result⟩ := enabled performed
    obtain ⟨guard, stored, rfl⟩ := Option.map_eq_some_iff.mp result
    exact .recordWorkload (Option.isNone_iff_eq_none.mp free) held (succeeded_eq_some.mp stored)
  | recordTokens request observation =>
    obtain ⟨accounting, held, performed⟩ := Option.bind_eq_some_iff.mp done
    obtain ⟨free, result⟩ := enabled performed
    obtain ⟨guard, stored, rfl⟩ := Option.map_eq_some_iff.mp result
    exact .recordTokens (Option.isNone_iff_eq_none.mp free) held (succeeded_eq_some.mp stored)
  | log request row =>
    obtain ⟨accounting, held, performed⟩ := Option.bind_eq_some_iff.mp done
    obtain ⟨⟨going, sent, unlogged, own⟩, result⟩ := enabled performed
    cases result
    exact .log held going sent unlogged own
  | commit request =>
    obtain ⟨accounting, held, performed⟩ := Option.bind_eq_some_iff.mp done
    split at performed
    next row queued =>
      obtain ⟨requests, inserted, rfl⟩ := Option.map_eq_some_iff.mp performed
      exact .commit held queued inserted
    next => cases performed
  | settle ref actual seen =>
    obtain ⟨⟨free, named, earlier⟩, result⟩ := enabled done
    cases result
    exact .settle (Option.isNone_iff_eq_none.mp free) named earlier
  | settleTokens ref =>
    obtain ⟨free, result⟩ := enabled done
    cases result
    exact .settleTokens (Option.isNone_iff_eq_none.mp free)
  | close request =>
    obtain ⟨accounting, held, rfl⟩ := Option.map_eq_some_iff.mp done
    exact .close held
  | release request =>
    obtain ⟨accounting, held, performed⟩ := Option.bind_eq_some_iff.mp done
    obtain ⟨ref, reserved, performed⟩ := Option.bind_eq_some_iff.mp performed
    obtain ⟨⟨free, closing, unsent⟩, result⟩ := enabled performed
    cases result
    exact .release (Option.isNone_iff_eq_none.mp free) held closing reserved unsent
  | finish request =>
    obtain ⟨accounting, held, performed⟩ := Option.bind_eq_some_iff.mp done
    obtain ⟨⟨free, closing, unfinished⟩, result⟩ := enabled performed
    obtain ⟨guard, ended, rfl⟩ := Option.map_eq_some_iff.mp result
    exact .finish (Option.isNone_iff_eq_none.mp free) held closing unfinished (succeeded_eq_some.mp ended)

variable (store receipts) in
/-- A whole schedule, under a rule that is checked at every action. -/
def play (rule : World → Action → Prop) [∀ world action, Decidable (rule world action)] (world : World) :
    List Action → Option World
  | [] => some world
  | action :: actions =>
    if rule world action then (perform store receipts world action).bind (play rule · actions) else none

instance (world : World) (action : Action) :
    Decidable ((fun _ _ => True : World → Action → Prop) world action) :=
  .isTrue trivial

theorem play_reaches {rule : World → Action → Prop} [∀ world action, Decidable (rule world action)]
    {world after : World}
    {actions : List Action} (played : play store receipts rule world actions = some after) :
    Reaches store receipts rule world after := by
  induction actions generalizing world with
  | nil =>
    cases played
    exact .refl
  | cons action actions ih =>
    obtain ⟨allowed, played⟩ := enabled played
    obtain ⟨middle, done, rest⟩ := Option.bind_eq_some_iff.mp played
    exact .head ⟨action, allowed, perform_step done⟩ (ih rest)

/-- A fact checked on the world a schedule ends in is a fact of a reachable world. -/
theorem play_any {rule : World → Action → Prop} [∀ world action, Decidable (rule world action)]
    {world : World}
    (actions : List Action) {fact : World → Prop} [DecidablePred fact]
    (played : (play store receipts rule world actions).any (fun after => fact after) = true) :
    ∃ after, Reaches store receipts rule world after ∧ fact after := by
  obtain ⟨after, ran, holds⟩ := (Option.any_eq_true ..).mp played
  exact ⟨after, play_reaches ran, of_decide_eq_true holds⟩

end World

section sample

/-- A store over its default history, for priced usage. -/
def sampleStore : Store where
  path := "/home/dev/.tokenpak/spend_guard.db"
  ledgerId := "5f1d7c0a9b3e4d628f0a1c2b3d4e5f60"
  ledgerKey := "2ecede6e4d90ec5e87b16e8611136124f6fced7d67279036c132b9022c07988c"
  auditStoreSha256 := "e8dae5db804e5b2669d3dfa02c11b9b82a5b19093ec396b085a53c5dea732a35"
  historySeconds := 2592000
  maxRecords := 100000
  accountingBasis := .pricedUsage

def Store.freshMonitor (store : Store) : Monitor :=
  ⟨some ⟨store.ledgerId, some store.auditStoreSha256⟩, .empty⟩

/-- A fleet cap of ten dollars and no other. -/
def sampleCaps : SpendGuard.RollingCaps.RollingCapsConfig := ⟨true, 3600, 0, 0, 0, 10, 0, 0⟩

def sampleCall (projection : Projection) : Call :=
  ⟨"session-a", "agent-a", "instance-a", "request-a", projection, sampleCaps, 600, false⟩

def noReceipts : Receipts := ⟨fun _ _ _ _ _ _ _ => false⟩

theorem one_nonneg : (0 : ℚ) ≤ 1 := by decide
theorem four_nonneg : (0 : ℚ) ≤ 4 := by decide
theorem five_nonneg : (0 : ℚ) ≤ 5 := by decide
theorem six_nonneg : (0 : ℚ) ≤ 6 := by decide

def sampleAttribution : Attribution := ⟨"session-a", "agent-a", by decide⟩

def sampleStart : World := .fresh (seconds 1750000000) sampleStore.freshMonitor.domain

def sampleRow (reservationId : String) (costUsd : ℚ) (complete : Bool) : Row where
  timestamp := seconds 1750000000
  model := "claude-sonnet-4-5"
  sessionId := "session-a"
  agentId := "agent-a"
  estimatedCost := some costUsd
  inputTokens := some 3
  outputTokens := some 2
  cacheReadTokens := some 1
  cacheCreationTokens := some 0
  guardReservationId := reservationId
  guardLedgerKey := sampleStore.ledgerKey
  guardUsageComplete := complete
  guardPriceJson := none
  guardTokenUsageComplete := false
  providerInputTokens := none
  providerOutputTokens := none
  providerCacheReadTokens := none
  providerCacheCreationTokens := none
  providerUsageSource := ""
  providerUsageProvider := ""

/-- A request that opens its coverage and is admitted. -/
def sampleAdmission (request : Nat) (projection : Projection) (reservationId coverageId : String) :
    List Action :=
  [.begin request sampleAttribution "instance-a" coverageId 3600,
    .claim request (sampleCall projection) reservationId,
    .look, .decide (seconds 1750000000)]

def sampleUsage (request : Nat) (row : Row) : List Action :=
  [.send request none, .log request row, .commit request]

end sample
end TokenPak.Reservations
