import TokenPak.Reservations.Settlement

/-! What a committed transaction has done to the guard database: one inversion
for each operation. The proofs about whole runs use these and do not unfold the
operations again. -/

namespace TokenPak.Reservations
open Library Transaction
open SpendGuard (Time seconds)

variable {store : Store} {before after : Guard} {result : Unit} {now : Time}
variable {ref : ReservationRef}

theorem bindBasis_ok (ran : (bindBasis store).run before = .ok (result, after)) :
    (after = before ∨ after = before.basisBound store.ledgerKey store.accountingBasis) ∧
      after.checkBasis store = .ok () := by
  replace ran := get_bind_ok.mp ran
  split at ran
  next =>
    obtain ⟨checked, rfl⟩ := read_ok.mp ran
    exact ⟨.inl rfl, checked⟩
  next =>
    obtain ⟨_, ran⟩ := require_bind_ok.mp ran
    replace ran := modify_bind_ok.mp ran
    obtain ⟨checked, rfl⟩ := read_ok.mp ran
    exact ⟨.inr rfl, checked⟩

def Guard.without (reservations coverage : List String) (guard : Guard) : Guard :=
  { guard with reservations := guard.reservations.delete (·.reservationId ∈ reservations)
               coverage := guard.coverage.delete (·.coverageId ∈ coverage) }

theorem Guard.without_nil (guard : Guard) : guard.without [] [] = guard := by
  obtain ⟨reservations, coverage, generations⟩ := guard
  simp only [without, Guard.mk.injEq, and_true]
  constructor <;> ext1 <;> simp

/-- Pruning deletes finished rows of its own ledger. -/
structure Pruned (ledgerKey : String) (before : Guard) (reservations coverage : List String) : Prop where
  finished : ∀ hold ∈ before.reservations.rows, hold.reservationId ∈ reservations →
    hold.ledgerKey = ledgerKey ∧ (hold.status = .settled ∨ hold.status = .released)
  own : ∀ entry ∈ before.coverage.rows, entry.coverageId ∈ coverage → entry.ledgerKey = ledgerKey

theorem mem_prunedReservations {ledgerKey : String} {cutoff : Time} {guard : Guard} {hold : Reservation}
    (member : hold ∈ guard.reservations.rows)
    (pruned : hold.reservationId ∈ prunedReservations ledgerKey cutoff guard) :
    hold.Prunable ledgerKey cutoff := by
  obtain ⟨other, taken, same⟩ := List.mem_map.mp pruned
  obtain ⟨present, prunable⟩ := List.mem_filter.mp (List.mem_of_mem_take taken)
  obtain rfl := guard.reservations.eq_of_key present member rfl (congrArg some same.symm)
  exact of_decide_eq_true prunable

theorem mem_prunedCoverage {ledgerKey : String} {cutoff : Time} {guard : Guard} {entry : Coverage}
    (member : entry ∈ guard.coverage.rows)
    (pruned : entry.coverageId ∈ prunedCoverage ledgerKey cutoff guard) :
    entry.Prunable ledgerKey cutoff := by
  obtain ⟨other, taken, same⟩ := List.mem_map.mp pruned
  obtain ⟨present, prunable⟩ := List.mem_filter.mp (List.mem_of_mem_take taken)
  obtain rfl := guard.coverage.eq_of_key present member rfl (congrArg some same.symm)
  exact of_decide_eq_true prunable

theorem maintainHistory_ok {windowSeconds : Int}
    (ran : (maintainHistory store windowSeconds now).run before = .ok (result, after)) :
    after = before ∨ ∃ reservations coverage, Pruned store.ledgerKey before reservations coverage ∧
      after = (before.without reservations coverage).generationChanged store.ledgerKey := by
  replace ran := get_bind_ok.mp ran
  replace ran := modify_bind_ok.mp ran
  replace ran := get_bind_ok.mp ran
  obtain ⟨_, ran⟩ := require_bind_ok.mp ran
  replace ran := modify_bind_ok.mp ran
  replace ran := get_bind_ok.mp ran
  obtain ⟨_, ran⟩ := require_bind_ok.mp ran
  have final := modify_ok.mp ran
  split at final
  next none =>
    obtain ⟨noReservations, noCoverage⟩ := Nat.add_eq_zero_iff.mp none
    rw [List.length_eq_zero_iff] at noReservations noCoverage
    left
    rw [← final, noCoverage, noReservations]
    exact before.without_nil
  next =>
    refine .inr ⟨_, _, ⟨fun hold member pruned => ?_, fun entry member pruned => ?_⟩, final.symm⟩
    · have prunable := mem_prunedReservations member pruned
      exact ⟨prunable.1, prunable.2.1⟩
    · exact (mem_prunedCoverage member pruned).1

theorem insertReservation_ok {hold : Reservation}
    (ran : (insertReservation hold).run before = .ok (result, after)) :
    ∃ reservations, before.reservations.insert hold = some reservations ∧
      after = { before with reservations } := by
  replace ran := get_bind_ok.mp ran
  split at ran
  next => exact absurd ran throw_ok
  next reservations inserted => exact ⟨reservations, inserted, (set_ok.mp ran).symm⟩

/-- A committed admission: basis, pruning, the cap check on what they left, then
the new hold. -/
theorem reserveStatements_ok {receipts : Receipts} {call : Call} {reservationId : String}
    {pruning : Time} {monitor : Monitor}
    (ran : (reserveStatements store receipts call reservationId now pruning monitor).run before =
      .ok (result, after)) : ∃ bound trimmed reservations,
      (bindBasis store).run before = .ok ((), bound) ∧
      (maintainHistory store call.caps.windowSeconds pruning).run bound = .ok ((), trimmed) ∧
      (call.force = false → call.caps.enabled = true →
        checkCaps store receipts call now monitor trimmed = .ok ()) ∧
      trimmed.reservations.insert (call.hold store reservationId now) = some reservations ∧
      after = Guard.generationChanged store.ledgerKey { trimmed with reservations } := by
  obtain ⟨_, bound, bind, ran⟩ := bind_ok.mp ran
  obtain ⟨_, trimmed, maintain, ran⟩ := bind_ok.mp ran
  have finish {checked : Guard} (ran : (do
      widen .failure (insertReservation (call.hold store reservationId now))
      modify (Guard.generationChanged store.ledgerKey) : Transaction Guard Abort PUnit).run checked =
        .ok (result, after)) :
      ∃ reservations, checked.reservations.insert (call.hold store reservationId now) = some reservations ∧
        after = Guard.generationChanged store.ledgerKey { checked with reservations } := by
    obtain ⟨_, _, insert, ran⟩ := bind_ok.mp ran
    obtain ⟨reservations, inserted, rfl⟩ := insertReservation_ok (widen_ok.mp insert)
    exact ⟨reservations, inserted, (modify_ok.mp ran).symm⟩
  split at ran
  next limited =>
    obtain ⟨_, passed, ran⟩ := read_bind_ok.mp ran
    obtain ⟨reservations, inserted, final⟩ := finish ran
    exact ⟨bound, _, reservations, widen_ok.mp bind, widen_ok.mp maintain, fun _ _ => passed, inserted, final⟩
  next free =>
    obtain ⟨reservations, inserted, final⟩ := finish ran
    exact ⟨bound, trimmed, reservations, widen_ok.mp bind, widen_ok.mp maintain,
      fun forced enabled => absurd ⟨forced, enabled⟩ free, inserted, final⟩

theorem reserve_cases (store : Store) (receipts : Receipts) (call : Call) (reservationId : String)
    (now pruning : Time)
    (monitor : Monitor) (guard : Guard) :
    let result := reserve store receipts call reservationId now pruning monitor guard
    (result.1 = .ok (.admitted ⟨store.path, store.ledgerKey, reservationId, store.accountingBasis⟩) ∧
      (reserveStatements store receipts call reservationId now pruning monitor).run guard = .ok ((), result.2)) ∨
    ((∀ ref, result.1 ≠ .ok (.admitted ref)) ∧ result.2 = guard) := by
  unfold reserve
  cases call.validate store with
  | error failure => exact .inr ⟨nofun, rfl⟩
  | ok valid =>
    obtain ⟨_, after, ran, result⟩ | ⟨abort, _, result⟩ :=
      atomically_cases (reserveStatements store receipts call reservationId now pruning monitor) guard
    · simp only [result]
      exact .inl ⟨trivial, ran⟩
    · cases abort with
      | failure failure => simp [result]
      | breach breach => simp [result]

theorem committedRow_ok {actual : Projection} {monitor : Monitor} {row : Row}
    (found : committedRow store ref actual monitor = .ok row) :
    row ∈ monitor.requests.rows ∧ row.guardReservationId = ref.reservationId ∧
      row.guardLedgerKey = store.ledgerKey ∧
      row.guardUsageComplete = true := by
  unfold committedRow at found
  obtain ⟨_, _, found⟩ := except_bind_ok.mp found
  obtain ⟨_, owned, found⟩ := except_bind_ok.mp found
  obtain ⟨_, _, found⟩ := except_bind_ok.mp found
  split at found
  next committed only =>
    obtain ⟨_, _, found⟩ := except_bind_ok.mp found
    obtain ⟨_, _, found⟩ := except_bind_ok.mp found
    cases found
    have member : row ∈ monitor.requests.rows.filter _ := only ▸ List.mem_singleton_self row
    obtain ⟨member, matched⟩ := List.mem_filter.mp member
    have matched := of_decide_eq_true matched
    exact ⟨member, matched.1, matched.2.1.trans (ensure_ok.mp owned).2, matched.2.2⟩
  next => cases found

def Guard.settled (ledgerKey : String) (selects : Reservation → Prop) [DecidablePred selects]
    (actual : Actual) (now : Time)
    (recorded : Coverage → Prop) [DecidablePred recorded] (guard : Guard) : Guard :=
  ((guard.settleHold selects actual now).markRecorded recorded).generationChanged ledgerKey

theorem settleStatements_ok {actual : Projection} {row : Row} {settled : Bool}
    (ran : (settleStatements store ref actual row now).run before = .ok (settled, after)) :
    after = before ∨ ∃ (usage : Actual) (recorded : Coverage → Prop) (_ : DecidablePred recorded),
      (∀ entry, recorded entry → entry.ledgerKey = store.ledgerKey) ∧
      after = before.settled store.ledgerKey (Reservation.Standing store.ledgerKey ref.reservationId) usage now recorded := by
  replace ran := get_bind_ok.mp ran
  obtain ⟨_, ran⟩ := require_bind_ok.mp ran
  split at ran
  next => exact .inl (pure_ok.mp ran).2.symm
  next =>
    replace ran := modify_bind_ok.mp ran
    replace ran := modify_bind_ok.mp ran
    replace ran := modify_bind_ok.mp ran
    obtain ⟨_, rfl⟩ := pure_ok.mp ran
    exact .inr ⟨_, _, inferInstance, fun _ selected => selected.1, rfl⟩

theorem settleTokenStatements_ok {monitor : Monitor} {settled : Bool}
    (ran : (settleTokenStatements store ref now monitor).run before = .ok (settled, after)) :
    after = before ∨ ∃ (usage : Actual) (recorded : Coverage → Prop) (_ : DecidablePred recorded),
      (∀ entry, recorded entry → entry.ledgerKey = store.ledgerKey) ∧ after = before.settled store.ledgerKey
        (Reservation.TokenStanding store.ledgerKey ref.reservationId) usage now recorded := by
  replace ran := get_bind_ok.mp ran
  obtain ⟨rows, _, ran⟩ := read_bind_ok.mp ran
  split at ran
  next =>
    split at ran
    next => exact .inl (pure_ok.mp ran).2.symm
    next =>
      replace ran := modify_bind_ok.mp ran
      replace ran := modify_bind_ok.mp ran
      replace ran := modify_bind_ok.mp ran
      obtain ⟨_, rfl⟩ := pure_ok.mp ran
      exact .inr ⟨_, _, inferInstance, fun _ selected => selected.1, rfl⟩
  next => exact absurd ran throw_ok

theorem releaseStatements_ok {released : Bool}
    (ran : (releaseStatements store ref now).run before = .ok (released, after)) :
    after = before ∨
      after = (before.releaseHold store.ledgerKey ref.reservationId now).generationChanged store.ledgerKey := by
  obtain ⟨_, _, ran⟩ := read_bind_ok.mp ran
  obtain ⟨_, ran⟩ := require_bind_ok.mp ran
  replace ran := get_bind_ok.mp ran
  obtain ⟨_, ran⟩ := require_bind_ok.mp ran
  split at ran
  next => exact .inl (pure_ok.mp ran).2.symm
  next =>
    replace ran := modify_bind_ok.mp ran
    replace ran := modify_bind_ok.mp ran
    exact .inr (pure_ok.mp ran).2.symm

theorem updateCoverage_indexed {coverageId : String} {change : Coverage → Coverage}
    {keeps : ∀ entry, (change entry).primaryKey = entry.primaryKey}
    (ran : (updateCoverage store coverageId change keeps).run before = .ok (result, after)) :
    let selects := fun entry : Coverage => entry.coverageId = coverageId ∧ entry.ledgerKey = store.ledgerKey
    { before with coverage := before.coverage.update selects change keeps }.CoverageIndexed ∧
      after = Guard.generationChanged store.ledgerKey
        { before with coverage := before.coverage.update selects change keeps } := by
  replace ran := get_bind_ok.mp ran
  obtain ⟨indexed, ran⟩ := require_bind_ok.mp ran
  obtain ⟨_, ran⟩ := require_bind_ok.mp ran
  exact ⟨indexed, (set_ok.mp ran).symm⟩

theorem updateCoverage_ok {coverageId : String} {change : Coverage → Coverage}
    {keeps : ∀ entry, (change entry).primaryKey = entry.primaryKey}
    (ran : (updateCoverage store coverageId change keeps).run before = .ok (result, after)) :
    let selects := fun entry : Coverage => entry.coverageId = coverageId ∧ entry.ledgerKey = store.ledgerKey
    after = Guard.generationChanged store.ledgerKey
      { before with coverage := before.coverage.update selects change keeps } :=
  (updateCoverage_indexed ran).2

theorem beginStatements_ok {sessionId ownerInstanceId coverageId : String} {windowSeconds : Int}
    (ran : (beginStatements store sessionId ownerInstanceId coverageId windowSeconds now).run before = .ok (result, after)) :
    ∃ bound trimmed coverage,
      (bindBasis store).run before = .ok ((), bound) ∧
      (maintainHistory store windowSeconds now).run bound = .ok ((), trimmed) ∧
      trimmed.coverage.insert ⟨coverageId, store.ledgerKey, ownerInstanceId, sessionId, now, none,
        0, "", .preflight, none,
        some store.accountingBasis, none⟩ = some coverage ∧
      after = Guard.generationChanged store.ledgerKey { trimmed with coverage } := by
  obtain ⟨_, bound, bind, ran⟩ := bind_ok.mp ran
  obtain ⟨_, trimmed, maintain, ran⟩ := bind_ok.mp ran
  replace ran := get_bind_ok.mp ran
  split at ran
  next =>
    obtain ⟨_, _, failed, _⟩ := bind_ok.mp ran
    exact absurd failed throw_ok
  next coverage inserted =>
    obtain ⟨_, _, changed, ran⟩ := bind_ok.mp ran
    obtain rfl := set_ok.mp changed
    exact ⟨bound, trimmed, coverage, bind, maintain, inserted, (modify_ok.mp ran).symm⟩

end TokenPak.Reservations
