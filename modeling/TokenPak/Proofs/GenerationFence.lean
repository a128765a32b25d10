import TokenPak.Proofs.LedgerOperations
import TokenPak.Reservations.Execution

/-! Every write transaction that changes a row of a ledger raises its generation,
and touches no row of another ledger. Equal generations therefore mean equal
rows, whatever ran in between. -/

namespace TokenPak.Reservations
open Library Transaction
open SpendGuard (Time seconds)

/-- The write transactions of any process, on any ledger of the database. -/
inductive Operation where
  | reserve (store : Store) (receipts : Receipts) (call : Call) (reservationId : String) (now pruning : Time)
      (monitor : Monitor)
  | settleAfterCommit (store : Store) (ref : ReservationRef) (actual : Projection) (now : Time) (monitor : Monitor)
  | releaseUnsent (store : Store) (ref : ReservationRef) (now : Time)
  | beginRequest (store : Store) (sessionId ownerInstanceId coverageId : String) (windowSeconds : Int) (now : Time)
  | attemptedSend (store : Store) (coverageId : String) (ref : Option ReservationRef) (workload : Option String)
  | recordWorkload (store : Store) (coverageId workload : String)
  | recordTokens (store : Store) (coverageId : String) (observation : TokenObservation)
  | finishRequest (store : Store) (coverageId : String) (now : Time)
  | settleTokens (store : Store) (ref : ReservationRef) (now : Time) (monitor : Monitor)

def Operation.apply : Operation → Guard → Guard
  | .reserve store receipts call reservationId now pruning monitor, guard =>
    (Reservations.reserve store receipts call reservationId now pruning monitor guard).2
  | .settleAfterCommit store ref actual now monitor, guard =>
    (Reservations.settleAfterCommit store ref actual now monitor guard).2
  | .releaseUnsent store ref now, guard => (Reservations.releaseUnsent store ref now guard).2
  | .beginRequest store sessionId ownerInstanceId coverageId windowSeconds now, guard =>
    (Reservations.beginRequest store sessionId ownerInstanceId coverageId windowSeconds now guard).2
  | .attemptedSend store coverageId ref workload, guard =>
    (Reservations.attemptedSend store coverageId ref workload guard).2
  | .recordWorkload store coverageId workload, guard =>
      (Reservations.recordWorkload store coverageId workload guard).2
  | .recordTokens store coverageId observation, guard =>
    (Reservations.recordTokens store coverageId observation guard).2
  | .finishRequest store coverageId now, guard => (Reservations.finishRequest store coverageId now guard).2
  | .settleTokens store ref now monitor, guard => (Reservations.settleTokens store ref now monitor guard).2

namespace Guard

def run (operations : List Operation) (guard : Guard) : Guard :=
  operations.foldl (fun guard op => op.apply guard) guard

def generationOf (ledgerKey : String) (guard : Guard) : Option Nat :=
  (guard.generationRow ledgerKey).map Generation.generation

def ledgerRows (ledgerKey : String) (guard : Guard) : List Reservation × List Coverage :=
  (guard.reservations.rows.filter (·.ledgerKey = ledgerKey),
    guard.coverage.rows.filter (·.ledgerKey = ledgerKey))

/-- Generations as a count; a ledger without one comes before all others. -/
def rank (ledgerKey : String) (guard : Guard) : Nat := ((guard.generationOf ledgerKey).map Nat.succ).getD 0

end Guard

/-- What a transaction on one ledger does to the database. -/
structure Moves (ledgerKey : String) (before after : Guard) : Prop where
  others : ∀ other ≠ ledgerKey, after.ledgerRows other = before.ledgerRows other ∧
    after.generationRow other = before.generationRow other
  rank : before.rank ledgerKey ≤ after.rank ledgerKey
  fenced : before.rank ledgerKey = after.rank ledgerKey →
    after.ledgerRows ledgerKey = before.ledgerRows ledgerKey

namespace Moves
variable {ledgerKey : String}

theorem refl (guard : Guard) : Moves ledgerKey guard guard :=
  ⟨fun _ _ => ⟨rfl, rfl⟩, Nat.le_refl _, fun _ => rfl⟩

theorem trans {first middle last : Guard} (left : Moves ledgerKey first middle)
    (right : Moves ledgerKey middle last) :
    Moves ledgerKey first last := by
  refine ⟨fun other different => ?_, Nat.le_trans left.rank right.rank, fun same => ?_⟩
  · exact ⟨(right.others other different).1.trans (left.others other different).1,
      (right.others other different).2.trans (left.others other different).2⟩
  · have still : first.rank ledgerKey = middle.rank ledgerKey := Nat.le_antisymm left.rank (same ▸ right.rank)
    exact (right.fenced (still ▸ same)).trans (left.fenced still)

end Moves

namespace Guard

theorem rank_eq_iff (ledgerKey : String) (guard other : Guard) :
    guard.rank ledgerKey = other.rank ledgerKey ↔
      guard.generationOf ledgerKey = other.generationOf ledgerKey := by
  unfold rank
  cases guard.generationOf ledgerKey <;> cases other.generationOf ledgerKey <;> simp

theorem generationRow_upsert (row : Generation) (change : Generation → Generation)
    (keeps : ∀ row, (change row).primaryKey = row.primaryKey) (guard : Guard) (ledgerKey : String) :
    generationRow ledgerKey { guard with generations := guard.generations.upsert row change keeps } =
      if ledgerKey = row.ledgerKey then some ((guard.generationRow ledgerKey).elim row change)
      else guard.generationRow ledgerKey := by
  have same (entry : Generation) : (change entry).ledgerKey = entry.ledgerKey := Option.some.inj (keeps entry)
  simp only [generationRow, Table.upsert_rows]
  by_cases taken : guard.generations.Taken row.ledgerKey
  · rw [if_neg (by simpa [Generation.primaryKey] using taken)]
    obtain ⟨entry, member, keyed⟩ := List.mem_filterMap.mp taken
    have matched : entry.ledgerKey = row.ledgerKey := Option.some.inj keyed
    rw [List.find?_map]
    have unchanged : (fun entry : Generation => decide (entry.ledgerKey = ledgerKey)) ∘
        (fun other => if other.primaryKey = row.primaryKey then change other else other) =
          fun entry => decide (entry.ledgerKey = ledgerKey) := by
      funext other
      by_cases hit : other.primaryKey = row.primaryKey <;> simp [hit, same]
    rw [unchanged]
    cases found : guard.generations.rows.find? (fun entry => decide (entry.ledgerKey = ledgerKey)) with
    | none =>
      rw [if_neg, Option.map_none]
      rintro rfl
      exact List.find?_eq_none.mp found entry member (by simpa using matched)
    | some hit =>
      have own : hit.ledgerKey = ledgerKey := by simpa using List.find?_some found
      by_cases here : ledgerKey = row.ledgerKey
      · simp [here, Generation.primaryKey, own]
      · simp [here, Generation.primaryKey, own]
  · rw [if_pos (by simpa [Generation.primaryKey] using taken), List.find?_append]
    by_cases here : ledgerKey = row.ledgerKey
    · subst here
      have absent : guard.generations.rows.find? (fun entry =>
          decide (entry.ledgerKey = row.ledgerKey)) = none := by
        refine List.find?_eq_none.mpr fun entry member keyed => taken ?_
        exact List.mem_filterMap.mpr ⟨entry, member, by simpa [Generation.primaryKey] using keyed⟩
      simp [absent]
    · simp [here, Ne.symm here]

theorem rank_generationChanged (ledgerKey : String) (guard : Guard) :
    guard.rank ledgerKey < (guard.generationChanged ledgerKey).rank ledgerKey := by
  have row :=
    generationRow_upsert ⟨ledgerKey, 1, none⟩
      (fun row => { row with generation := row.generation + 1 })
    (fun _ => rfl) guard ledgerKey
  simp only [rank, generationOf, generationChanged, row]
  cases guard.generationRow ledgerKey <;> simp

theorem generationRow_generationChanged {ledgerKey other : String} (different : other ≠ ledgerKey)
    (guard : Guard) :
    (guard.generationChanged ledgerKey).generationRow other = guard.generationRow other := by
  have row :=
    generationRow_upsert ⟨ledgerKey, 1, none⟩
      (fun row => { row with generation := row.generation + 1 })
    (fun _ => rfl) guard other
  rw [if_neg different] at row
  exact row

end Guard

theorem moves_basisBound (ledgerKey : String) (basis : Basis) (guard : Guard) :
    Moves ledgerKey guard (guard.basisBound ledgerKey basis) := by
  have row other := Guard.generationRow_upsert ⟨ledgerKey, 0, some basis⟩
    (fun row => { row with accountingBasis := row.accountingBasis.or (some basis) })
      (fun _ => rfl) guard other
  refine ⟨fun other different => ⟨rfl, ?_⟩, ?_, fun _ => rfl⟩
  · exact (row other).trans (if_neg different)
  · simp only [Guard.rank, Guard.generationOf, Guard.basisBound, row]
    cases guard.generationRow ledgerKey <;> simp

/-- The change stays within one ledger and leaves the generations to be raised. -/
structure Confined (ledgerKey : String) (before changed : Guard) : Prop where
  generations : changed.generations = before.generations
  others : ∀ other ≠ ledgerKey, changed.ledgerRows other = before.ledgerRows other

/-- Rows change and the generation moves, in one transaction. -/
theorem Confined.moves {ledgerKey : String} {before changed : Guard}
    (confined : Confined ledgerKey before changed) :
    Moves ledgerKey before (changed.generationChanged ledgerKey) := by
  have rows (other : String) : changed.generationRow other = before.generationRow other := by
    simp only [Guard.generationRow, confined.generations]
  have raised := changed.rank_generationChanged ledgerKey
  have start : changed.rank ledgerKey = before.rank ledgerKey := by
    simp only [Guard.rank, Guard.generationOf, rows]
  refine ⟨fun other different => ⟨confined.others other different, ?_⟩, ?_, fun same => ?_⟩
  · exact (changed.generationRow_generationChanged different).trans (rows other)
  · omega
  · omega

section confined
variable {ledgerKey : String} {before : Guard}

theorem confined_without {reservations coverage : List String}
    (pruned : Pruned ledgerKey before reservations coverage) :
    Confined ledgerKey before (before.without reservations coverage) := by
  refine ⟨rfl, fun other different => Prod.ext ?_ ?_⟩
  · refine Table.filter_delete _ fun hold member selected => decide_eq_false fun same => ?_
    exact different (same.symm.trans (pruned.finished hold member selected).1)
  · refine Table.filter_delete _ fun entry member selected => decide_eq_false fun same => ?_
    exact different (same.symm.trans (pruned.own entry member selected))

theorem confined_insert_reservation {hold : Reservation}
    {reservations : Table Reservation String Reservation.primaryKey}
    (inserted : before.reservations.insert hold = some reservations) (own : hold.ledgerKey = ledgerKey) :
    Confined ledgerKey before { before with reservations } := by
  refine ⟨rfl, fun other different => Prod.ext ?_ rfl⟩
  exact Table.filter_insert inserted (decide_eq_false fun same => different (same.symm.trans own))

theorem confined_insert_coverage {entry : Coverage} {coverage : Table Coverage String Coverage.primaryKey}
    (inserted : before.coverage.insert entry = some coverage) (own : entry.ledgerKey = ledgerKey) :
    Confined ledgerKey before { before with coverage } := by
  refine ⟨rfl, fun other different => Prod.ext rfl ?_⟩
  exact Table.filter_insert inserted (decide_eq_false fun same => different (same.symm.trans own))

theorem Confined.trans {middle last : Guard} (left : Confined ledgerKey before middle)
    (right : Confined ledgerKey middle last) :
    Confined ledgerKey before last :=
  ⟨right.generations.trans left.generations,
    fun other different => (right.others other different).trans (left.others other different)⟩

theorem confined_update_reservations {selects : Reservation → Prop} [DecidablePred selects]
    {change : Reservation → Reservation} (keeps : ∀ hold, (change hold).primaryKey = hold.primaryKey)
    (own : ∀ hold, selects hold → hold.ledgerKey = ledgerKey)
    (stays : ∀ hold, (change hold).ledgerKey = hold.ledgerKey) :
    Confined ledgerKey before { before with reservations := before.reservations.update selects change keeps } := by
  refine ⟨rfl, fun other different => Prod.ext (Table.filter_update keeps _ fun hold _ selected => ?_) rfl⟩
  have apart : hold.ledgerKey ≠ other := fun same => different (same.symm.trans (own hold selected))
  exact ⟨decide_eq_false apart, decide_eq_false (stays hold ▸ apart)⟩

theorem confined_update_coverage {selects : Coverage → Prop} [DecidablePred selects]
    {change : Coverage → Coverage}
    (keeps : ∀ entry, (change entry).primaryKey = entry.primaryKey)
    (own : ∀ entry, selects entry → entry.ledgerKey = ledgerKey)
    (stays : ∀ entry, (change entry).ledgerKey = entry.ledgerKey) :
    Confined ledgerKey before { before with coverage := before.coverage.update selects change keeps } := by
  refine ⟨rfl, fun other different => Prod.ext rfl (Table.filter_update keeps _ fun entry _ selected => ?_)⟩
  have apart : entry.ledgerKey ≠ other := fun same => different (same.symm.trans (own entry selected))
  exact ⟨decide_eq_false apart, decide_eq_false (stays entry ▸ apart)⟩

theorem moves_settled {selects : Reservation → Prop} [DecidablePred selects] {recorded : Coverage → Prop}
    [DecidablePred recorded] {actual : Actual} {now : Time}
    (own : ∀ hold, selects hold → hold.ledgerKey = ledgerKey)
    (marked : ∀ entry, recorded entry → entry.ledgerKey = ledgerKey) :
    Moves ledgerKey before (before.settled ledgerKey selects actual now recorded) := by
  have holds : Confined ledgerKey before (before.settleHold selects actual now) :=
    confined_update_reservations (fun _ => by rfl) own fun _ => by rfl
  exact (holds.trans (confined_update_coverage (fun _ => by rfl) marked fun _ => by rfl)).moves

end confined

section operations
variable {store : Store} {before after : Guard}

theorem bindBasis_moves {result : Unit} (ran : (bindBasis store).run before = .ok (result, after)) :
    Moves store.ledgerKey before after := by
  obtain ⟨rfl | rfl, _⟩ := bindBasis_ok ran
  · exact .refl _
  · exact moves_basisBound ..

theorem maintainHistory_moves {windowSeconds : Int} {now : Time} {result : Unit}
    (ran : (maintainHistory store windowSeconds now).run before = .ok (result, after)) :
    Moves store.ledgerKey before after := by
  obtain rfl | ⟨_, _, pruned, rfl⟩ := maintainHistory_ok ran
  · exact .refl _
  · exact (confined_without pruned).moves

theorem reserve_moves (receipts : Receipts) (call : Call) (reservationId : String)
    (now pruning : Time) (monitor : Monitor)
    (guard : Guard) :
    Moves store.ledgerKey guard (reserve store receipts call reservationId now pruning monitor guard).2 := by
  obtain ⟨_, ran⟩ | ⟨_, unchanged⟩ :=
    reserve_cases store receipts call reservationId now pruning monitor guard
  · obtain ⟨bound, trimmed, reservations, bind, maintain, _, inserted, final⟩ := reserveStatements_ok ran
    rw [final]
    exact ((bindBasis_moves bind).trans (maintainHistory_moves maintain)).trans
      (confined_insert_reservation inserted rfl).moves
  · rw [unchanged]
    exact .refl _

theorem atomically_moves {α : Type} {ledgerKey : String} {statements : Transaction Guard Failure α}
    (guard : Guard)
    (committed : ∀ value after, statements.run guard = .ok (value, after) → Moves ledgerKey guard after) :
    Moves ledgerKey guard (atomically statements guard).2 := by
  obtain ⟨value, after, ran, result⟩ | ⟨_, _, result⟩ := atomically_cases statements guard
  · rw [result]
    exact committed value after ran
  · rw [result]
    exact .refl _

theorem updateCoverage_moves {coverageId : String} {change : Coverage → Coverage}
    (keeps : ∀ entry, (change entry).primaryKey = entry.primaryKey)
    (stays : ∀ entry, (change entry).ledgerKey = entry.ledgerKey) (guard : Guard) :
    Moves store.ledgerKey guard (atomically (updateCoverage store coverageId change keeps) guard).2 := by
  refine atomically_moves guard fun _ after ran => ?_
  rw [updateCoverage_ok ran]
  exact (confined_update_coverage keeps (fun _ selected => selected.2) stays).moves

theorem beginRequest_moves (sessionId ownerInstanceId coverageId : String) (windowSeconds : Int) (now : Time)
    (guard : Guard) :
    Moves store.ledgerKey guard (beginRequest store sessionId ownerInstanceId coverageId windowSeconds now guard).2 := by
  unfold beginRequest
  split
  next => exact .refl _
  next =>
    refine atomically_moves guard fun _ after ran => ?_
    obtain ⟨bound, trimmed, coverage, bind, maintain, inserted, rfl⟩ := beginStatements_ok ran
    exact ((bindBasis_moves bind).trans (maintainHistory_moves maintain)).trans (confined_insert_coverage inserted rfl).moves

theorem settleAfterCommit_moves (ref : ReservationRef) (actual : Projection) (now : Time) (monitor : Monitor)
    (guard : Guard) :
    Moves store.ledgerKey guard (settleAfterCommit store ref actual now monitor guard).2 := by
  unfold settleAfterCommit
  split
  next => exact .refl _
  next =>
    refine atomically_moves guard fun _ after ran => ?_
    obtain rfl | ⟨usage, recorded, _, own, rfl⟩ := settleStatements_ok ran
    · exact .refl _
    · exact moves_settled (fun _ standing => standing.2.1) own

theorem settleTokens_moves (ref : ReservationRef) (now : Time) (monitor : Monitor) (guard : Guard) :
    Moves store.ledgerKey guard (settleTokens store ref now monitor guard).2 := by
  unfold settleTokens
  split
  next =>
    refine atomically_moves guard fun _ after ran => ?_
    obtain rfl | ⟨usage, recorded, _, own, rfl⟩ := settleTokenStatements_ok ran
    · exact .refl _
    · exact moves_settled (fun _ standing => standing.1.2.1) own
  next => exact .refl _

theorem releaseUnsent_moves (ref : ReservationRef) (now : Time) (guard : Guard) :
    Moves store.ledgerKey guard (releaseUnsent store ref now guard).2 := by
  unfold releaseUnsent
  split
  next =>
    refine atomically_moves guard fun _ after ran => ?_
    obtain rfl | rfl := releaseStatements_ok ran
    · exact .refl _
    · exact (confined_update_reservations (fun _ => by rfl) (fun _ selected =>
        selected.2.1) fun _ => by rfl).moves
  next => exact .refl _

theorem attemptedSend_moves (coverageId : String) (ref : Option ReservationRef)
    (workload : Option String) (guard : Guard) :
    Moves store.ledgerKey guard (attemptedSend store coverageId ref workload guard).2 := by
  unfold attemptedSend
  split
  next => exact updateCoverage_moves (fun _ => by rfl) (fun _ => by rfl) guard
  next => exact .refl _

end operations

theorem Operation.moves (op : Operation) (guard : Guard) :
    ∃ ledgerKey, Moves ledgerKey guard (op.apply guard) := by
  cases op with
  | reserve store => exact ⟨store.ledgerKey, reserve_moves ..⟩
  | settleAfterCommit store => exact ⟨store.ledgerKey, settleAfterCommit_moves ..⟩
  | releaseUnsent store => exact ⟨store.ledgerKey, releaseUnsent_moves ..⟩
  | beginRequest store => exact ⟨store.ledgerKey, beginRequest_moves ..⟩
  | attemptedSend store => exact ⟨store.ledgerKey, attemptedSend_moves ..⟩
  | recordWorkload store =>
      exact ⟨store.ledgerKey, updateCoverage_moves (fun _ => by rfl) (fun _ => by rfl) guard⟩
  | recordTokens store =>
      exact ⟨store.ledgerKey, updateCoverage_moves (fun _ => by rfl) (fun _ => by rfl) guard⟩
  | finishRequest store =>
      exact ⟨store.ledgerKey, updateCoverage_moves (fun _ => by rfl) (fun _ => by rfl) guard⟩
  | settleTokens store => exact ⟨store.ledgerKey, settleTokens_moves ..⟩

/-- A run never lowers a generation, and keeps the rows of a ledger whose
generation it did not raise. -/
theorem Guard.run_fenced (operations : List Operation) (ledgerKey : String) (guard : Guard) :
    guard.rank ledgerKey ≤ (guard.run operations).rank ledgerKey ∧
      (guard.rank ledgerKey = (guard.run operations).rank ledgerKey →
        (guard.run operations).ledgerRows ledgerKey = guard.ledgerRows ledgerKey) := by
  induction operations generalizing guard with
  | nil => exact ⟨Nat.le_refl _, fun _ => rfl⟩
  | cons op operations ih =>
    change _ ≤ ((op.apply guard).run operations).rank ledgerKey ∧
      (_ = _ → ((op.apply guard).run operations).ledgerRows _ = _)
    obtain ⟨own, moves⟩ := op.moves guard
    obtain ⟨rest, fenced⟩ := ih (op.apply guard)
    have first : guard.rank ledgerKey ≤ (op.apply guard).rank ledgerKey ∧
        (guard.rank ledgerKey = (op.apply guard).rank ledgerKey →
          (op.apply guard).ledgerRows ledgerKey = guard.ledgerRows ledgerKey) := by
      by_cases here : ledgerKey = own
      · subst here
        exact ⟨moves.rank, moves.fenced⟩
      · obtain ⟨rows, generation⟩ := moves.others ledgerKey here
        exact ⟨by simp only [Guard.rank, Guard.generationOf, generation, Nat.le_refl], fun _ => rows⟩
    refine ⟨Nat.le_trans first.1 rest, fun same => ?_⟩
    have still : guard.rank ledgerKey = (op.apply guard).rank ledgerKey :=
      Nat.le_antisymm first.1 (same ▸ rest)
    exact (fenced (still ▸ same)).trans (first.2 still)

/-- Two committed states of a ledger with one generation have the same rows, and
an admission that raises or meets a cap leaves the whole database as it was. -/
theorem generation_fence :
    (∀ (start : Guard) (earlier later : List Operation) (ledgerKey : String),
      ((start.run earlier).run later).generationOf ledgerKey = (start.run earlier).generationOf ledgerKey →
      ((start.run earlier).run later).ledgerRows ledgerKey = (start.run earlier).ledgerRows ledgerKey) ∧
    ∀ (store : Store) (receipts : Receipts) (call : Call) (reservationId : String) (now pruning : Time)
      (monitor : Monitor) (guard : Guard),
      (∀ ref, (reserve store receipts call reservationId now pruning monitor guard).1 ≠ .ok (.admitted ref)) →
      (reserve store receipts call reservationId now pruning monitor guard).2 = guard := by
  constructor
  · intro start earlier later ledgerKey same
    exact ((start.run earlier).run_fenced later ledgerKey).2 ((Guard.rank_eq_iff ..).mpr same.symm)
  · intro store receipts call reservationId now pruning monitor guard refused
    obtain ⟨admitted, _⟩ | ⟨_, unchanged⟩ :=
      reserve_cases store receipts call reservationId now pruning monitor guard
    · exact absurd admitted (refused _)
    · exact unchanged

section blocked

private def admission (reservationId : String) (second : Int) : Operation :=
  .reserve sampleStore noReceipts (sampleCall ⟨4, 3, 2, 1,
    four_nonneg⟩) reservationId (seconds second) (seconds second)
    sampleStore.freshMonitor

private def opened : List Operation :=
  [.beginRequest sampleStore "session-a" "instance-a" "tpc_0a" 3600 (seconds 1750000000),
    admission "tpr_0a" 1750000001,
    admission "tpr_0b" 1750000002]

/-- A third request of four dollars meets the cap and changes nothing. -/
theorem generation_fence_blocked :
    (Guard.empty.run opened).generationOf sampleStore.ledgerKey = some 3 ∧
      ((Guard.empty.run opened).run [admission "tpr_0c" 1750000003]).ledgerRows sampleStore.ledgerKey =
        (Guard.empty.run opened).ledgerRows sampleStore.ledgerKey ∧
      (reserve sampleStore noReceipts (sampleCall ⟨4, 3, 2, 1, four_nonneg⟩) "tpr_0c" (seconds 1750000003)
        (seconds 1750000003) sampleStore.freshMonitor (Guard.empty.run opened)).2 = Guard.empty.run opened := by
  refine ⟨by decide +kernel, ?_, ?_⟩
  · exact generation_fence.1 Guard.empty opened [admission "tpr_0c" 1750000003] sampleStore.ledgerKey (by decide +kernel)
  · refine generation_fence.2 _ _ _ _ _ _ _ _ fun ref admitted => ?_
    have blocked : (reserve sampleStore noReceipts (sampleCall ⟨4, 3, 2, 1, four_nonneg⟩) "tpr_0c" (seconds 1750000003)
        (seconds 1750000003) sampleStore.freshMonitor (Guard.empty.run opened)).1.toOption.all
          (fun outcome => outcome matches .blocked _) = true := by decide +kernel
    rw [admitted] at blocked
    cases blocked

end blocked
end TokenPak.Reservations
