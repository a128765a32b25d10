import TokenPak.Library.Total
import TokenPak.Proofs.LedgerOperations

/-! What the transactions do to the holds of a ledger. Apart from admission they
add none; they only close standing holds and delete finished ones. -/

namespace TokenPak.Reservations
open Library Transaction
open SpendGuard (Time seconds)

def Guard.standing (ledgerKey : String) (guard : Guard) : List Reservation :=
  guard.reservations.rows.filter (Reservation.Unresolved ledgerKey)

theorem mem_standing {ledgerKey : String} {guard : Guard} {hold : Reservation} :
    hold ∈ guard.standing ledgerKey ↔ hold ∈ guard.reservations.rows ∧ hold.Unresolved ledgerKey := by
  simp [Guard.standing]

/-- A transaction that may close the named holds and adds none. -/
structure Keeps (ledgerKey : String) (closes : String → Status → Prop) (before after : Guard) : Prop where
  back : ∀ hold ∈ after.reservations.rows, ∃ earlier ∈ before.reservations.rows,
    hold = { earlier with status := hold.status, actual := hold.actual, settledAt := hold.settledAt } ∧
      (hold.status = earlier.status ∨ closes earlier.reservationId hold.status)
  forth : ∀ hold ∈ before.standing ledgerKey, (∀ status, ¬ closes hold.reservationId status) →
    hold ∈ after.standing ledgerKey
  standing : (after.standing ledgerKey).Sublist (before.standing ledgerKey)
  undisturbed : (∀ id status, ¬ closes id status) → after.standing ledgerKey = before.standing ledgerKey

namespace Keeps
variable {ledgerKey : String} {closes : String → Status → Prop} {before after : Guard}

theorem of_reservations (same : after.reservations = before.reservations) :
    Keeps ledgerKey closes before after := by
  have standing : after.standing ledgerKey = before.standing ledgerKey := by
    rw [Guard.standing, same, Guard.standing]
  exact ⟨fun hold member => ⟨hold, same ▸ member, rfl, .inl rfl⟩, fun hold member _ => standing ▸ member,
    standing ▸ .refl _, fun _ => standing⟩

theorem idle (same : after.reservations = before.reservations) :
    Keeps ledgerKey (fun _ _ => False) before after :=
  of_reservations same

theorem trans {middle : Guard} (left : Keeps ledgerKey (fun _ _ => False) before middle)
    (right : Keeps ledgerKey closes middle after) : Keeps ledgerKey closes before after := by
  refine ⟨fun hold member => ?_, fun hold member open_ => ?_, right.standing.trans left.standing,
    fun none => ?_⟩
  · obtain ⟨current, present, same, status⟩ := right.back hold member
    obtain ⟨earlier, found, origin, kept | closed⟩ := left.back current present
    · refine ⟨earlier, found, ?_, ?_⟩
      · rw [same, origin]
      · rw [origin] at status
        exact status.imp_left (·.trans kept)
    · exact closed.elim
  · exact right.forth hold (left.forth hold member fun _ closed => closed) open_
  · exact (right.undisturbed none).trans (left.undisturbed fun _ _ closed => closed)

theorem delete {gone : List String} {reservations : Table Reservation String Reservation.primaryKey}
    (rows : reservations = before.reservations.delete (·.reservationId ∈ gone))
    (finished : ∀ hold ∈ before.reservations.rows, hold.reservationId ∈ gone →
      hold.status = .settled ∨ hold.status = .released) (same : after.reservations = reservations) :
    Keeps ledgerKey closes before after := by
  subst rows
  have standing : after.standing ledgerKey = before.standing ledgerKey := by
    rw [Guard.standing, same]
    refine Table.filter_delete _ fun hold member selected => decide_eq_false fun unresolved => ?_
    obtain settled | released := finished hold member selected
    · simp [settled, Reservation.Unresolved] at unresolved
    · simp [released, Reservation.Unresolved] at unresolved
  refine ⟨fun hold member => ⟨hold, ?_, rfl, .inl rfl⟩, fun hold member _ => standing ▸ member,
    standing ▸ .refl _,
    fun _ => standing⟩
  rw [same] at member
  exact (List.mem_filter.mp member).1

theorem update {selects : Reservation → Prop} [DecidablePred selects] {change : Reservation → Reservation}
    (status : Status) (keeps : ∀ hold, (change hold).primaryKey = hold.primaryKey)
    (closed : ∀ hold, change hold =
      { hold with status := status, actual := (change hold).actual, settledAt := (change hold).settledAt })
    (done : status = .settled ∨ status = .released)
    (named : ∀ hold, selects hold → closes hold.reservationId status)
    (same : after.reservations = before.reservations.update selects change keeps) :
    Keeps ledgerKey closes before after := by
  have closing (hold : Reservation) : (change hold).status = status := by rw [closed]
  have finished (hold : Reservation) : ¬ (change hold).Unresolved ledgerKey := by
    rintro ⟨_, open_⟩
    rw [closing] at open_
    obtain rfl | rfl := done <;> simp at open_
  refine ⟨fun hold member => ?_, fun hold member open_ => ?_, ?_, fun none => ?_⟩
  · rw [same] at member
    obtain ⟨earlier, found, rfl⟩ := List.mem_map.mp member
    by_cases selected : selects earlier
    · refine ⟨earlier, found, ?_, .inr ?_⟩
      · simp only [if_pos selected]
        nth_rewrite 1 [closed]
        rw [closing]
      · rw [if_pos selected, closing]
        exact named earlier selected
    · exact ⟨earlier, found, by rw [if_neg selected], .inl (by rw [if_neg selected])⟩
  · obtain ⟨member, unresolved⟩ := mem_standing.mp member
    refine mem_standing.mpr ⟨?_, unresolved⟩
    rw [same]
    refine List.mem_map.mpr ⟨hold, member, if_neg fun selected => ?_⟩
    exact open_ status (named hold selected)
  · rw [Guard.standing, same]
    exact Table.filter_update_sublist keeps _ fun hold _ => decide_eq_false (finished hold)
  · rw [Guard.standing, same]
    exact Table.filter_update keeps _ fun hold _ selected => absurd (named hold selected) (none _ _)

end Keeps

section operations
variable {store : Store} {before after : Guard}

theorem bindBasis_keeps {closes : String → Status → Prop} {result : Unit}
    (ran : (bindBasis store).run before = .ok (result, after)) :
    Keeps store.ledgerKey closes before after := by
  obtain ⟨rfl | rfl, _⟩ := bindBasis_ok ran
  · exact .of_reservations rfl
  · exact .of_reservations rfl

theorem maintainHistory_keeps {closes : String → Status → Prop} {windowSeconds : Int} {now : Time}
    {result : Unit}
    (ran : (maintainHistory store windowSeconds now).run before = .ok (result, after)) :
    Keeps store.ledgerKey closes before after := by
  obtain rfl | ⟨reservations, coverage, pruned, rfl⟩ := maintainHistory_ok ran
  · exact .of_reservations rfl
  · exact .delete rfl (fun hold member gone => (pruned.finished hold member gone).2) rfl

theorem beginRequest_keeps {sessionId ownerInstanceId coverageId : String} {windowSeconds : Int} {now : Time}
    {result : Except Failure Unit}
    (begun : beginRequest store sessionId ownerInstanceId coverageId windowSeconds now before =
      (result, after)) :
    Keeps store.ledgerKey (fun _ _ => False) before after := by
  unfold beginRequest at begun
  split at begun
  next => cases begun; exact .of_reservations rfl
  next =>
    obtain ⟨_, changed, ran, final⟩ | ⟨_, _, final⟩ := atomically_cases _ before
    · obtain ⟨bound, trimmed, coverage, bind, maintain, _, rfl⟩ := beginStatements_ok ran
      rw [final] at begun
      cases begun
      exact (bindBasis_keeps bind).trans ((maintainHistory_keeps maintain).trans (.of_reservations rfl))
    · rw [final] at begun
      cases begun
      exact .of_reservations rfl

theorem updateCoverage_reservations (store : Store) (coverageId : String) (change : Coverage → Coverage)
    (keeps : ∀ entry, (change entry).primaryKey = entry.primaryKey) (guard : Guard) :
    (atomically (updateCoverage store coverageId change keeps) guard).2.reservations =
      guard.reservations := by
  obtain ⟨_, changed, ran, final⟩ | ⟨_, _, final⟩ :=
    atomically_cases (updateCoverage store coverageId change keeps) guard
  · rw [final, updateCoverage_ok ran]
    rfl
  · rw [final]

theorem attemptedSend_reservations (store : Store) (coverageId : String)
    (ref : Option ReservationRef) (workload : Option String)
    (guard : Guard) :
    (attemptedSend store coverageId ref workload guard).2.reservations = guard.reservations := by
  unfold attemptedSend
  split
  next => exact updateCoverage_reservations ..
  next => rfl

theorem settleAfterCommit_keeps (ref : ReservationRef) (actual : Projection) (now : Time)
    (seen : Monitor) (guard : Guard) :
    Keeps store.ledgerKey (fun id status => status = .settled ∧ id = ref.reservationId ∧
      ∃ row ∈ seen.requests.rows,
        row.guardReservationId = id ∧ row.guardLedgerKey = store.ledgerKey ∧ row.guardUsageComplete = true)
      guard (settleAfterCommit store ref actual now seen guard).2 := by
  unfold settleAfterCommit
  split
  next => exact .of_reservations rfl
  next row found =>
    obtain ⟨member, same, owned, complete⟩ := committedRow_ok found
    obtain ⟨_, changed, ran, final⟩ | ⟨_, _, final⟩ :=
      atomically_cases (settleStatements store ref actual row now) guard
    · rw [final]
      obtain rfl | ⟨usage, recorded, _, _, rfl⟩ := settleStatements_ok ran
      · exact .of_reservations rfl
      · refine .update .settled (fun _ => by rfl) (fun _ => by rfl) (.inl rfl) (fun hold standing => ?_) rfl
        exact ⟨rfl, standing.1, row, member, same.trans standing.1.symm, owned, complete⟩
    · rw [final]
      exact .of_reservations rfl

theorem releaseUnsent_keeps (ref : ReservationRef) (now : Time) (guard : Guard) :
    Keeps store.ledgerKey (fun id status => status = .released ∧ id = ref.reservationId)
      guard (releaseUnsent store ref now guard).2 := by
  unfold releaseUnsent
  split
  next =>
    obtain ⟨_, changed, ran, final⟩ | ⟨_, _, final⟩ :=
      atomically_cases (releaseStatements store ref now) guard
    · rw [final]
      obtain rfl | rfl := releaseStatements_ok ran
      · exact .of_reservations rfl
      · exact .update .released (fun _ => by rfl) (fun _ => by rfl) (.inr rfl)
          (fun hold selected => ⟨rfl, selected.1⟩) rfl
    · rw [final]
      exact .of_reservations rfl
  next => exact .of_reservations rfl

theorem settleTokens_priced (priced : store.accountingBasis = .pricedUsage) (ref : ReservationRef)
    (now : Time)
    (monitor : Monitor) (guard : Guard) : (settleTokens store ref now monitor guard).2 = guard := by
  unfold settleTokens
  split
  next =>
    obtain ⟨_, changed, ran, final⟩ | ⟨_, _, final⟩ :=
      atomically_cases (settleTokenStatements store ref now monitor) guard
    · obtain ⟨current, state, got, ran⟩ := bind_ok.mp ran
      obtain ⟨rows, _, correlated, _⟩ := bind_ok.mp ran
      obtain ⟨correlated, _⟩ := read_ok.mp correlated
      obtain ⟨_, tokens, _⟩ := except_bind_ok.mp correlated
      rw [ensure_ok, priced] at tokens
      cases tokens
    · rw [final]
  next => rfl

end operations
end TokenPak.Reservations

/-! The totals an admission is checked against, as sums: recorded usage of the
window and the projections of standing holds without a committed row. -/

namespace TokenPak.Reservations
open Library
open SpendGuard (Time seconds)

theorem mem_dimensions (dimension : Dimension) : dimension ∈ dimensions := by
  obtain ⟨scope, measure⟩ := dimension
  cases scope <;> cases measure <;> decide

theorem queryRecordedUsage_eq (cutoff : Int) (agentId : String) (rows : List Row) (dimension : Dimension) :
    queryRecordedUsage cutoff agentId rows dimension = total (fun row =>
      if row.Since cutoff ∧ dimension.scope.covers (Text.lower agentId) (sqlLower row.agentId) then
        row.amount dimension.measure else 0) rows := by
  change total (Row.amount · dimension.measure) _ = _
  rw [since, List.filter_filter, total_filter]
  refine total_congr fun row _ => ?_
  simp [and_comm]

/-- One pass over standing holds. A hold whose usage is committed must still have
its attribution; any other must not be expired. -/
structure Passed (now : Time) (committed : Committed) (hold : Reservation) : Prop where
  attributed : ∀ attribution, committed hold.reservationId = some attribution →
    attribution = (hold.sessionId, hold.agentId)
  unexpired : committed hold.reservationId = none → ¬ (hold.expiresAt ≤ now ∨ hold.status = .expired)

def activeShare (basis : Basis) (agentId : String) (committed : Committed) (dimension : Dimension)
    (hold : Reservation) : ℚ :=
  if committed hold.reservationId = none then hold.share basis agentId dimension else 0

variable {store : Store} {agentId : String} {now : Time} {committed : Committed}

theorem addActive_ok {totals after : Usage} {hold : Reservation}
    (added : addActive store agentId now committed totals hold = .ok after) :
    Passed now committed hold ∧
      ∀ dimension, after dimension = totals dimension +
          activeShare store.accountingBasis agentId committed dimension hold := by
  unfold addActive at added
  split at added
  next attribution found =>
    split at added
    next same =>
      cases added
      refine ⟨⟨fun other also => ?_, fun missing => (nomatch found.symm.trans missing)⟩, fun dimension => ?_⟩
      · exact (Option.some.inj (also.symm.trans found)).trans same
      · simp [activeShare, found]
    next => cases added
  next missing =>
    obtain ⟨_, _, added⟩ := except_bind_ok.mp added
    obtain ⟨_, unexpired, added⟩ := except_bind_ok.mp added
    cases added
    refine ⟨⟨fun _ found => (nomatch missing.symm.trans found), fun _ => ensure_ok.mp unexpired⟩,
      fun dimension => ?_⟩
    simp [activeShare, missing]

theorem foldActive_ok {holds : List Reservation} {totals after : Usage}
    (added : holds.foldlM (addActive store agentId now committed) totals = .ok after) :
    (∀ hold ∈ holds, Passed now committed hold) ∧ ∀ dimension,
      after dimension = totals dimension +
          total (activeShare store.accountingBasis agentId committed dimension) holds := by
  induction holds generalizing totals with
  | nil =>
    cases added
    exact ⟨fun _ member => absurd member List.not_mem_nil, fun dimension => by simp⟩
  | cons hold holds ih =>
    rw [List.foldlM_cons] at added
    obtain ⟨middle, first, rest⟩ := except_bind_ok.mp added
    obtain ⟨passed, share⟩ := addActive_ok first
    obtain ⟨others, sum⟩ := ih rest
    refine ⟨fun other member => ?_, fun dimension => ?_⟩
    · obtain rfl | inside := List.mem_cons.mp member
      · exact passed
      · exact others other inside
    · rw [sum, share, total_cons, add_assoc]

theorem active_ok {guard : Guard} {held : Usage}
    (computed : active store agentId now committed guard = .ok held) :
    (∀ hold ∈ guard.standing store.ledgerKey, Passed now committed hold) ∧ ∀ dimension,
      held dimension = total (activeShare store.accountingBasis agentId committed dimension)
          (guard.standing store.ledgerKey) := by
  unfold active at computed
  obtain ⟨_, _, computed⟩ := except_bind_ok.mp computed
  obtain ⟨_, _, computed⟩ := except_bind_ok.mp computed
  obtain ⟨passed, sum⟩ := foldActive_ok computed
  refine ⟨passed, fun dimension => ?_⟩
  rw [sum, Pi.zero_apply, zero_add]
  rfl

def committedUsage (ledgerKey : String) (rows : List Row) : Committed :=
  correlate (fun row => sqlLower row.agentId) (rows.filter (Row.CompleteFor ledgerKey))

theorem committedUsage_eq_none {ledgerKey id : String} {rows : List Row} :
    committedUsage ledgerKey rows id = none ↔
      ¬ ∃ row ∈ rows, row.CompleteFor ledgerKey ∧ row.guardReservationId = id := by
  simp only [committedUsage, correlate_eq_none, List.mem_filter, decide_eq_true_eq]
  constructor
  · rintro none ⟨row, member, complete, same⟩
    exact none row ⟨member, complete⟩ same
  · rintro none row ⟨member, complete⟩ same
    exact none ⟨row, member, complete, same⟩

theorem recorded_ok {receipts : Receipts} {windowSeconds : Int} {requirePrices : Bool}
    {monitor : Monitor} {guard : Guard} {used : Usage}
    (priced : store.accountingBasis = .pricedUsage)
    (computed : recorded store receipts agentId windowSeconds now requirePrices monitor guard =
      .ok (used, committed)) :
    used = queryRecordedUsage (windowStart windowSeconds now) agentId monitor.requests.rows ∧
      committed = committedUsage store.ledgerKey monitor.requests.rows ∧
      ∀ row ∈ monitor.requests.rows, row.Since (windowStart windowSeconds now) →
        row.Measurable ∧ (row.guardReservationId ≠ "" → row.guardUsageComplete = true) := by
  unfold recorded at computed
  rw [priced] at computed
  obtain ⟨_, _, computed⟩ := except_bind_ok.mp computed
  obtain ⟨_, valid, computed⟩ := except_bind_ok.mp computed
  obtain ⟨_, _, computed⟩ := except_bind_ok.mp computed
  cases computed
  exact ⟨rfl, rfl, validateRecordedRows_ok valid⟩

theorem breach_eq_none {call : Call} {used held : Usage} (none : call.firstBreach used held = none)
    (dimension : Dimension)
    (capped : call.Capped dimension) :
    used dimension + held dimension + call.projection.amount dimension.measure ≤
      capOf call.caps dimension := by
  have passed := List.findSome?_eq_none_iff.mp none dimension (mem_dimensions dimension)
  by_contra excess
  simp [Call.breach, capped, not_le.mp excess] at passed

/-- A passed check leaves room for the request under every cap that applies. -/
theorem checkCaps_ok {receipts : Receipts} {call : Call} {monitor : Monitor} {guard : Guard}
    (checked : checkCaps store receipts call now monitor guard = .ok ()) : ∃ used committed held,
      recorded store receipts call.agent call.caps.windowSeconds now call.requirePrices monitor guard = .ok (used, committed) ∧
      active store call.agent now committed guard = .ok held ∧ ∀ dimension, call.Capped dimension →
        used dimension + held dimension + call.projection.amount dimension.measure ≤
            capOf call.caps dimension := by
  unfold checkCaps at checked
  obtain ⟨⟨used, committed⟩, first, checked⟩ := except_bind_ok.mp checked
  obtain ⟨held, second, checked⟩ := except_bind_ok.mp checked
  have usage : recorded store receipts call.agent call.caps.windowSeconds now call.requirePrices monitor guard =
      .ok (used, committed) := by
    cases result : recorded store receipts call.agent call.caps.windowSeconds now call.requirePrices monitor guard with
    | error failure => rw [result] at first; cases first
    | ok value => rw [result] at first; cases first; rfl
  have holds : active store call.agent now committed guard = .ok held := by
    cases result : active store call.agent now committed guard with
    | error failure => rw [result] at second; cases second
    | ok value => rw [result] at second; cases second; rfl
  split at checked
  next => cases checked
  next none => exact ⟨used, committed, held, usage, holds, breach_eq_none none⟩

end TokenPak.Reservations
