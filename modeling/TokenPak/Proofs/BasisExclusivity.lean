import TokenPak.Proofs.GenerationFence

/-! The accounting basis of a ledger. The first admission or coverage record binds
it, within the transaction that writes the row, so all rows of a ledger carry one
basis. Admission, release and token settlement check it again; the updates of a
coverage record and the settlement of priced usage do not. -/

namespace TokenPak.Reservations
open Library Transaction
open SpendGuard (Time seconds)

namespace Guard

def basisOf (ledgerKey : String) (guard : Guard) : Option Basis :=
  (guard.generationRow ledgerKey).bind Generation.accountingBasis

structure Bound (guard : Guard) : Prop where
  reservations : ∀ hold ∈ guard.reservations.rows, hold.accountingBasis ≠ none ∧
    guard.basisOf hold.ledgerKey = hold.accountingBasis
  coverage : ∀ entry ∈ guard.coverage.rows, entry.accountingBasis ≠ none ∧
    guard.basisOf entry.ledgerKey = entry.accountingBasis
  indexed : guard.CoverageIndexed

theorem Bound.empty : Bound .empty :=
  ⟨fun _ member => (nomatch member), fun _ member => (nomatch member), List.nodup_nil⟩

theorem basisOf_generationChanged (ledgerKey other : String) (guard : Guard) :
    (guard.generationChanged ledgerKey).basisOf other = guard.basisOf other := by
  have row :=
    generationRow_upsert ⟨ledgerKey, 1, none⟩
      (fun row => { row with generation := row.generation + 1 })
    (fun _ => rfl) guard other
  simp only [basisOf, generationChanged, row]
  split
  next => cases guard.generationRow other <;> rfl
  next => rfl

theorem basisOf_basisBound (ledgerKey other : String) (basis : Basis) (guard : Guard) :
    (guard.basisBound ledgerKey basis).basisOf other =
      if other = ledgerKey then (guard.basisOf other).or (some basis) else guard.basisOf other := by
  have row := generationRow_upsert ⟨ledgerKey, 0, some basis⟩
    (fun row => { row with accountingBasis := row.accountingBasis.or (some basis) })
      (fun _ => rfl) guard other
  simp only [basisOf, basisBound, row]
  split
  next => cases guard.generationRow other <;> rfl
  next => rfl

theorem checkBasis_bound {store : Store} {guard : Guard} {basis : Basis}
    (bound : guard.basisOf store.ledgerKey = some basis) :
    guard.checkBasis store =
      if basis = store.accountingBasis then .ok ()
          else .error (.unavailable "accounting domain basis differs") := by
  unfold checkBasis
  rw [basisOf] at bound
  simp only [bound, Option.getD_some]

end Guard

/-- What a transaction does to the bases: it binds none anew, and its rows fit. -/
structure Binds (before after : Guard) : Prop where
  kept : ∀ ledgerKey basis, before.basisOf ledgerKey = some basis → after.basisOf ledgerKey = some basis
  bound : before.Bound → after.Bound

namespace Binds

theorem refl (guard : Guard) : Binds guard guard := ⟨fun _ _ bound => bound, fun bound => bound⟩

theorem trans {first middle last : Guard} (left : Binds first middle) (right : Binds middle last) :
    Binds first last :=
  ⟨fun ledgerKey basis bound => right.kept _ _ (left.kept ledgerKey basis bound), fun bound =>
    right.bound (left.bound bound)⟩

theorem of_rows {before after : Guard}
    (bases : ∀ ledgerKey, after.basisOf ledgerKey = before.basisOf ledgerKey)
    (reservations : ∀ hold ∈ after.reservations.rows, ∃ earlier ∈ before.reservations.rows,
      hold.ledgerKey = earlier.ledgerKey ∧ hold.accountingBasis = earlier.accountingBasis)
    (coverage : ∀ entry ∈ after.coverage.rows, ∃ earlier ∈ before.coverage.rows,
      entry.ledgerKey = earlier.ledgerKey ∧ entry.accountingBasis = earlier.accountingBasis)
    (indexed : before.CoverageIndexed → after.CoverageIndexed) : Binds before after := by
  refine ⟨fun ledgerKey basis bound => (bases ledgerKey).trans bound, fun bound =>
    ⟨?_, ?_, indexed bound.indexed⟩⟩
  · intro hold member
    obtain ⟨earlier, found, key, basis⟩ := reservations hold member
    rw [bases, key, basis]
    exact bound.reservations earlier found
  · intro entry member
    obtain ⟨earlier, found, key, basis⟩ := coverage entry member
    rw [bases, key, basis]
    exact bound.coverage earlier found

theorem generationChanged {before after : Guard} (ledgerKey : String) (binds : Binds before after) :
    Binds before (after.generationChanged ledgerKey) := by
  refine binds.trans (of_rows (fun other =>
    after.basisOf_generationChanged ledgerKey other) ?_ ?_ fun indexed => indexed)
  · exact fun hold member => ⟨hold, member, rfl, rfl⟩
  · exact fun entry member => ⟨entry, member, rfl, rfl⟩

end Binds

section statements
variable {store : Store} {before after : Guard}

/-- Binding leaves the store's own basis, and no rows of a ledger without one. -/
theorem bindBasis_binds {result : Unit} (ran : (bindBasis store).run before = .ok (result, after)) :
    Binds before after ∧ after.basisOf store.ledgerKey = some store.accountingBasis := by
  replace ran := get_bind_ok.mp ran
  split at ran
  next known =>
    obtain ⟨checked, rfl⟩ := read_ok.mp ran
    obtain ⟨basis, bound⟩ := Option.isSome_iff_exists.mp known
    have bound : before.basisOf store.ledgerKey = some basis := bound
    rw [Guard.checkBasis_bound bound] at checked
    split at checked
    next same => exact ⟨.refl _, same ▸ bound⟩
    next => cases checked
  next unknown =>
    obtain ⟨_, ran⟩ := require_bind_ok.mp ran
    replace ran := modify_bind_ok.mp ran
    obtain ⟨-, rfl⟩ := read_ok.mp ran
    have unbound : before.basisOf store.ledgerKey = none := Option.not_isSome_iff_eq_none.mp unknown
    have bases (other : String) {basis : Basis} (bound : before.basisOf other = some basis) :
        (before.basisBound store.ledgerKey store.accountingBasis).basisOf other = some basis := by
      rw [Guard.basisOf_basisBound, bound]
      split <;> rfl
    refine ⟨⟨fun ledgerKey basis bound => bases ledgerKey bound, fun bound => ⟨?_, ?_, bound.indexed⟩⟩, ?_⟩
    · intro hold member
      obtain ⟨known, same⟩ := bound.reservations hold member
      obtain ⟨basis, found⟩ := Option.ne_none_iff_exists'.mp known
      exact ⟨known, (bases hold.ledgerKey (same.trans found)).trans found.symm⟩
    · intro entry member
      obtain ⟨known, same⟩ := bound.coverage entry member
      obtain ⟨basis, found⟩ := Option.ne_none_iff_exists'.mp known
      exact ⟨known, (bases entry.ledgerKey (same.trans found)).trans found.symm⟩
    · rw [Guard.basisOf_basisBound, if_pos rfl, unbound]
      rfl

theorem binds_without (reservations coverage : List String) :
    Binds before (before.without reservations coverage) := by
  refine .of_rows (fun _ => rfl) (fun hold member => ?_) (fun entry member => ?_) fun indexed => ?_
  · exact ⟨hold, List.mem_of_mem_filter member, rfl, rfl⟩
  · exact ⟨entry, List.mem_of_mem_filter member, rfl, rfl⟩
  · refine indexed.sublist (List.Sublist.map _ ?_)
    exact List.Sublist.filter _ List.filter_sublist

theorem maintainHistory_binds {windowSeconds : Int} {now : Time} {result : Unit}
    (ran : (maintainHistory store windowSeconds now).run before = .ok (result, after)) :
    Binds before after := by
  obtain rfl | ⟨_, _, _, rfl⟩ := maintainHistory_ok ran
  · exact .refl _
  · exact (binds_without ..).generationChanged _

theorem binds_insert_reservation {hold : Reservation}
    {reservations : Table Reservation String Reservation.primaryKey}
    {basis : Basis} (inserted : before.reservations.insert hold = some reservations)
    (own : hold.accountingBasis = some basis)
    (bound : before.basisOf hold.ledgerKey = some basis) : Binds before { before with reservations } := by
  refine ⟨fun _ _ bound => bound, fun all => ⟨fun other member => ?_, all.coverage, all.indexed⟩⟩
  change other ∈ reservations.rows at member
  rw [(Table.insert_eq_some inserted).1] at member
  obtain member | new := List.mem_append.mp member
  · exact all.reservations other member
  · obtain rfl := List.mem_singleton.mp new
    exact ⟨by rw [own]; exact Option.some_ne_none _, bound.trans own.symm⟩

theorem binds_insert_coverage {entry : Coverage}
    {coverage : Table Coverage String Coverage.primaryKey} {basis : Basis}
    (inserted : before.coverage.insert entry = some coverage) (own : entry.accountingBasis = some basis)
    (bound : before.basisOf entry.ledgerKey = some basis) (unreserved : entry.reservationId = "") :
    Binds before { before with coverage } := by
  have rows := (Table.insert_eq_some inserted).1
  refine ⟨fun _ _ bound => bound, fun all => ⟨all.reservations, fun other member => ?_, ?_⟩⟩
  · change other ∈ coverage.rows at member
    rw [rows] at member
    obtain member | new := List.mem_append.mp member
    · exact all.coverage other member
    · obtain rfl := List.mem_singleton.mp new
      exact ⟨by rw [own]; exact Option.some_ne_none _, bound.trans own.symm⟩
  · have indexed := all.indexed
    simpa [Guard.CoverageIndexed, rows, List.filter_append, unreserved] using indexed

theorem binds_update_reservations {selects : Reservation → Prop} [DecidablePred selects]
    {change : Reservation → Reservation}
    (keeps : ∀ hold, (change hold).primaryKey = hold.primaryKey)
    (key : ∀ hold, (change hold).ledgerKey = hold.ledgerKey)
    (basis : ∀ hold, (change hold).accountingBasis = hold.accountingBasis) :
    Binds before { before with reservations := before.reservations.update selects change keeps } := by
  refine .of_rows (fun _ => rfl) (fun hold member => ?_)
    (fun entry member => ⟨entry, member, rfl, rfl⟩) fun indexed => indexed
  obtain ⟨earlier, found, rfl⟩ := List.mem_map.mp member
  refine ⟨earlier, found, ?_⟩
  split
  · exact ⟨key earlier, basis earlier⟩
  · exact ⟨rfl, rfl⟩

variable {change : Coverage → Coverage}

theorem binds_update_coverage {selects : Coverage → Prop} [DecidablePred selects]
    (keeps : ∀ entry, (change entry).primaryKey = entry.primaryKey)
    (key : ∀ entry, (change entry).ledgerKey = entry.ledgerKey)
    (basis : ∀ entry, (change entry).accountingBasis = entry.accountingBasis)
    (indexed : before.CoverageIndexed →
      { before with coverage := before.coverage.update selects change keeps }.CoverageIndexed) :
    Binds before { before with coverage := before.coverage.update selects change keeps } := by
  refine .of_rows (fun _ => rfl) (fun hold member => ⟨hold, member, rfl, rfl⟩)
    (fun entry member => ?_) indexed
  obtain ⟨earlier, found, rfl⟩ := List.mem_map.mp member
  refine ⟨earlier, found, ?_⟩
  split
  · exact ⟨key earlier, basis earlier⟩
  · exact ⟨rfl, rfl⟩

theorem indexed_update {selects : Coverage → Prop} [DecidablePred selects]
    (keeps : ∀ entry, (change entry).primaryKey = entry.primaryKey)
    (key : ∀ entry, (change entry).ledgerKey = entry.ledgerKey)
    (reservation : ∀ entry, (change entry).reservationId = entry.reservationId)
    (indexed : before.CoverageIndexed) :
    { before with coverage := before.coverage.update selects change keeps }.CoverageIndexed := by
  have same (entry : Coverage) : (if selects entry then change entry else entry).reservationId =
    entry.reservationId ∧
      (if selects entry then change entry else entry).ledgerKey = entry.ledgerKey := by
    split
    · exact ⟨reservation entry, key entry⟩
    · exact ⟨rfl, rfl⟩
  unfold Guard.CoverageIndexed at indexed ⊢
  rw [Table.update_rows, List.filter_map, List.map_map]
  simpa only [Function.comp_def, same] using indexed

theorem binds_settled {selects : Reservation → Prop} [DecidablePred selects] {recorded : Coverage → Prop}
    [DecidablePred recorded] {ledgerKey : String} {actual : Actual} {now : Time} :
    Binds before (before.settled ledgerKey selects actual now recorded) := by
  have holds : Binds before (before.settleHold selects actual now) :=
    binds_update_reservations (fun _ => by rfl) (fun _ => by rfl) fun _ => by rfl
  refine (holds.trans ?_).generationChanged _
  exact binds_update_coverage (fun _ => by rfl) (fun _ => by rfl) (fun _ => by rfl)
    (indexed_update (fun _ => by rfl) (fun _ => by rfl) fun _ => by rfl)

theorem atomically_binds {α : Type} {statements : Transaction Guard Failure α} (guard : Guard)
    (committed : ∀ value after, statements.run guard = .ok (value, after) → Binds guard after) :
    Binds guard (atomically statements guard).2 := by
  obtain ⟨value, after, ran, result⟩ | ⟨_, _, result⟩ := atomically_cases statements guard
  · rw [result]
    exact committed value after ran
  · rw [result]
    exact .refl _

theorem updateCoverage_binds {coverageId : String}
    (keeps : ∀ entry, (change entry).primaryKey = entry.primaryKey)
    (key : ∀ entry, (change entry).ledgerKey = entry.ledgerKey)
    (basis : ∀ entry, (change entry).accountingBasis = entry.accountingBasis) (guard : Guard) :
    Binds guard (atomically (updateCoverage store coverageId change keeps) guard).2 := by
  refine atomically_binds guard fun _ after ran => ?_
  obtain ⟨indexed, rfl⟩ := updateCoverage_indexed ran
  exact (binds_update_coverage keeps key basis fun _ => indexed).generationChanged _

end statements

theorem Operation.binds (op : Operation) (guard : Guard) : Binds guard (op.apply guard) := by
  cases op with
  | reserve store receipts call reservationId now pruning monitor =>
    change Binds guard (Reservations.reserve ..).2
    obtain ⟨_, ran⟩ | ⟨_, unchanged⟩ :=
      reserve_cases store receipts call reservationId now pruning monitor guard
    · obtain ⟨bound, trimmed, reservations, bind, maintain, _, inserted, final⟩ := reserveStatements_ok ran
      obtain ⟨binding, basis⟩ := bindBasis_binds bind
      have pruning := maintainHistory_binds maintain
      rw [final]
      refine (binding.trans (pruning.trans ?_)).generationChanged _
      exact binds_insert_reservation inserted rfl (pruning.kept _ _ basis)
    · rw [unchanged]
      exact .refl _
  | settleAfterCommit store ref actual now monitor =>
    change Binds guard (Reservations.settleAfterCommit ..).2
    unfold Reservations.settleAfterCommit
    split
    next => exact .refl _
    next =>
      refine atomically_binds guard fun _ after ran => ?_
      obtain rfl | ⟨usage, recorded, _, _, rfl⟩ := settleStatements_ok ran
      · exact .refl _
      · exact binds_settled
  | releaseUnsent store ref now =>
    change Binds guard (Reservations.releaseUnsent ..).2
    unfold Reservations.releaseUnsent
    split
    next =>
      refine atomically_binds guard fun _ after ran => ?_
      obtain rfl | rfl := releaseStatements_ok ran
      · exact .refl _
      · exact (binds_update_reservations (fun _ => by rfl) (fun _ => by rfl) fun _ =>
          by rfl).generationChanged _
    next => exact .refl _
  | beginRequest store sessionId ownerInstanceId coverageId windowSeconds now =>
    change Binds guard (Reservations.beginRequest ..).2
    unfold Reservations.beginRequest
    split
    next => exact .refl _
    next =>
      refine atomically_binds guard fun _ after ran => ?_
      obtain ⟨bound, trimmed, coverage, bind, maintain, inserted, rfl⟩ := beginStatements_ok ran
      obtain ⟨binding, basis⟩ := bindBasis_binds bind
      have pruning := maintainHistory_binds maintain
      refine (binding.trans (pruning.trans ?_)).generationChanged _
      exact binds_insert_coverage inserted rfl (pruning.kept _ _ basis) rfl
  | attemptedSend store coverageId ref workload =>
    change Binds guard (Reservations.attemptedSend ..).2
    unfold Reservations.attemptedSend
    split
    next => exact updateCoverage_binds (fun _ => by rfl) (fun _ => by rfl) (fun _ => by rfl) guard
    next => exact .refl _
  | recordWorkload store =>
      exact updateCoverage_binds (fun _ => by rfl) (fun _ => by rfl) (fun _ => by rfl) guard
  | recordTokens store =>
      exact updateCoverage_binds (fun _ => by rfl) (fun _ => by rfl) (fun _ => by rfl) guard
  | finishRequest store =>
      exact updateCoverage_binds (fun _ => by rfl) (fun _ => by rfl) (fun _ => by rfl) guard
  | settleTokens store ref now monitor =>
    change Binds guard (Reservations.settleTokens ..).2
    unfold Reservations.settleTokens
    split
    next =>
      refine atomically_binds guard fun _ after ran => ?_
      obtain rfl | ⟨usage, recorded, _, _, rfl⟩ := settleTokenStatements_ok ran
      · exact .refl _
      · exact binds_settled
    next => exact .refl _

theorem Guard.run_binds (operations : List Operation) (guard : Guard) :
    Binds guard (guard.run operations) := by
  induction operations generalizing guard with
  | nil => exact .refl _
  | cons op operations ih => exact (op.binds guard).trans (ih (op.apply guard))

/-! The operations of a store whose basis is another one. -/

def Operation.store : Operation → Store
  | .reserve store .. => store
  | .settleAfterCommit store .. => store
  | .releaseUnsent store .. => store
  | .beginRequest store .. => store
  | .attemptedSend store .. => store
  | .recordWorkload store .. => store
  | .recordTokens store .. => store
  | .finishRequest store .. => store
  | .settleTokens store .. => store

/-- Whether an operation returns; what it returns is left out. -/
def Operation.outcome : Operation → Guard → Except Failure Unit
  | .reserve store receipts call reservationId now pruning monitor, guard =>
    (Reservations.reserve store receipts call reservationId now pruning monitor guard).1.map fun _ => ()
  | .settleAfterCommit store ref actual now monitor, guard =>
    (Reservations.settleAfterCommit store ref actual now monitor guard).1.map fun _ => ()
  | .releaseUnsent store ref now, guard => (Reservations.releaseUnsent store ref now guard).1.map fun _ => ()
  | .beginRequest store sessionId ownerInstanceId coverageId windowSeconds now, guard =>
    (Reservations.beginRequest store sessionId ownerInstanceId coverageId windowSeconds now guard).1
  | .attemptedSend store coverageId ref workload, guard =>
    (Reservations.attemptedSend store coverageId ref workload guard).1
  | .recordWorkload store coverageId workload, guard =>
      (Reservations.recordWorkload store coverageId workload guard).1
  | .recordTokens store coverageId observation, guard =>
    (Reservations.recordTokens store coverageId observation guard).1
  | .finishRequest store coverageId now, guard => (Reservations.finishRequest store coverageId now guard).1
  | .settleTokens store ref now monitor, guard =>
    (Reservations.settleTokens store ref now monitor guard).1.map fun _ => ()

structure Operation.Refused (op : Operation) (guard : Guard) : Prop where
  failed : ∃ failure, op.outcome guard = .error failure
  unchanged : op.apply guard = guard

def Guard.Covers (store : Store) (coverageId : String) (guard : Guard) : Prop :=
  ∃ entry ∈ guard.coverage.rows, entry.coverageId = coverageId ∧ entry.ledgerKey = store.ledgerKey

/-- No other coverage record of the ledger names the reservation. -/
def Guard.Unnamed (store : Store) (coverageId : String) (ref : ReservationRef) (guard : Guard) : Prop :=
  ref.reservationId ≠ "" → ∀ entry ∈ guard.coverage.rows, entry.ledgerKey = store.ledgerKey →
    entry.reservationId = ref.reservationId → entry.coverageId = coverageId

/-- The operation acts on a row of the ledger and does not look at its basis. -/
def Operation.Unchecked (guard : Guard) : Operation → Prop
  | .settleAfterCommit store ref actual _ monitor => ∃ row, committedRow store ref actual monitor = .ok row ∧
      (guard.reservations.rows.find? fun hold => hold.reservationId = ref.reservationId ∧
        hold.ledgerKey = store.ledgerKey).map
        (fun hold => (hold.sessionId, hold.agentId)) = some (row.sessionId, sqlLower row.agentId)
  | .attemptedSend store coverageId ref _ =>
      (∀ held ∈ ref, store.owns held ∧ guard.Unnamed store coverageId held) ∧
      guard.Covers store coverageId
  | .recordWorkload store coverageId _ => guard.Covers store coverageId
  | .recordTokens store coverageId _ => guard.Covers store coverageId
  | .finishRequest store coverageId _ => guard.Covers store coverageId
  | _ => False

variable {guard : Guard}

theorem outcome_of_atomically {α : Type} {statements : Transaction Guard Failure α} :
    ((atomically statements guard).1.map fun _ => ()) = .ok () ↔ ∃ value after,
      statements.run guard = .ok (value, after) := by
  obtain ⟨value, after, ran, result⟩ | ⟨abort, ran, result⟩ := atomically_cases statements guard
  · rw [result, ran]
    exact ⟨fun _ => ⟨value, after, rfl⟩, fun _ => rfl⟩
  · rw [result, ran]
    exact ⟨fun failed => (nomatch failed), fun ⟨_, _, failed⟩ => (nomatch failed)⟩

variable {failure : Failure} {op : Operation}

theorem atomically_failed {α : Type} {statements : Transaction Guard Failure α}
    (failed : ((atomically statements guard).1.map fun _ => ()) = .error failure) :
    (atomically statements guard).2 = guard := by
  obtain ⟨value, after, _, result⟩ | ⟨abort, _, result⟩ := atomically_cases statements guard
  · rw [result] at failed
    cases failed
  · rw [result]

theorem except_unit_map (result : Except Failure Unit) : (result.map fun _ => ()) = result := by
  cases result <;> rfl

theorem beginRequest_failed {store : Store} {sessionId ownerInstanceId coverageId : String}
    {windowSeconds : Int} {now : Time}
    (failed : (beginRequest store sessionId ownerInstanceId coverageId windowSeconds now guard).1 =
      .error failure) :
    (beginRequest store sessionId ownerInstanceId coverageId windowSeconds now guard).2 = guard := by
  unfold beginRequest at failed ⊢
  split
  next => rfl
  next valid =>
    rw [valid] at failed
    exact atomically_failed ((except_unit_map _).trans failed)

theorem Operation.unchanged_of_error (failed : op.outcome guard = .error failure) :
    op.apply guard = guard := by
  cases op with
  | reserve store receipts call reservationId now pruning monitor =>
    obtain ⟨admitted, _⟩ | ⟨_, unchanged⟩ :=
      reserve_cases store receipts call reservationId now pruning monitor guard
    · simp only [outcome, admitted] at failed
      cases failed
    · exact unchanged
  | settleAfterCommit store ref actual now monitor =>
    cases found : committedRow store ref actual monitor with
    | error => simp only [apply, Reservations.settleAfterCommit, found]
    | ok row =>
      simp only [outcome, apply, Reservations.settleAfterCommit, found] at failed ⊢
      exact atomically_failed failed
  | releaseUnsent store ref now =>
    simp only [outcome, apply, Reservations.releaseUnsent] at failed ⊢
    split at failed <;> rename_i owned
    · rw [if_pos owned]
      exact atomically_failed failed
    · rw [if_neg owned]
  | beginRequest store sessionId ownerInstanceId coverageId windowSeconds now =>
    exact beginRequest_failed failed
  | attemptedSend store coverageId ref workload =>
    simp only [outcome, apply, Reservations.attemptedSend] at failed ⊢
    split at failed <;> rename_i owned
    · rw [if_pos owned]
      exact atomically_failed ((except_unit_map _).trans failed)
    · rw [if_neg owned]
  | recordWorkload => exact atomically_failed ((except_unit_map _).trans failed)
  | recordTokens => exact atomically_failed ((except_unit_map _).trans failed)
  | finishRequest => exact atomically_failed ((except_unit_map _).trans failed)
  | settleTokens store ref now monitor =>
    simp only [outcome, apply, Reservations.settleTokens] at failed ⊢
    split at failed <;> rename_i own
    · rw [if_pos own]
      exact atomically_failed failed
    · rw [if_neg own]

theorem Operation.refused_iff : op.Refused guard ↔ op.outcome guard ≠ .ok () := by
  constructor
  · rintro ⟨⟨failure, failed⟩, _⟩ passed
    cases failed.symm.trans passed
  · intro unpassed
    cases result : op.outcome guard with
    | ok _ => exact absurd result unpassed
    | error failure => exact ⟨⟨failure, result⟩, unchanged_of_error result⟩

section other
variable {guard : Guard} {store : Store} {basis : Basis}

theorem checkBasis_other (bound : guard.basisOf store.ledgerKey = some basis)
    (other : basis ≠ store.accountingBasis) :
    guard.checkBasis store = .error (.unavailable "accounting domain basis differs") := by
  rw [Guard.checkBasis_bound bound, if_neg other]

theorem bindBasis_other (bound : guard.basisOf store.ledgerKey = some basis)
    (other : basis ≠ store.accountingBasis) :
    (bindBasis store).run guard = .error (.unavailable "accounting domain basis differs") := by
  have known : ((guard.generationRow store.ledgerKey).bind Generation.accountingBasis).isSome = true := by
    rw [← Guard.basisOf, bound]
    rfl
  unfold bindBasis
  rw [run_bind (get_ok.mpr ⟨rfl, rfl⟩), if_pos known]
  exact run_read_error (checkBasis_other bound other)

theorem tokenRows_other {monitor : Monitor} {selected : List Row} {rows : List (Row × TokenObservation)}
    (bound : guard.basisOf store.ledgerKey = some basis) (other : basis ≠ store.accountingBasis) :
    tokenRows store monitor guard selected ≠ .ok rows := by
  intro found
  obtain ⟨_, _, found⟩ := except_bind_ok.mp found
  obtain ⟨_, _, found⟩ := except_bind_ok.mp found
  obtain ⟨_, checked, _⟩ := except_bind_ok.mp found
  rw [checkBasis_other bound other] at checked
  cases checked

variable {coverageId : String}

theorem count_covered : guard.coverage.count (fun entry => entry.coverageId = coverageId ∧
      entry.ledgerKey = store.ledgerKey) = 1 ↔
      guard.Covers store coverageId := by
  rw [Table.count, List.countP_eq_length_filter]
  constructor
  · intro one
    obtain ⟨entry, only⟩ := List.length_eq_one_iff.mp one
    have member : entry ∈ guard.coverage.rows.filter _ := only ▸ List.mem_singleton_self entry
    obtain ⟨found, matched⟩ := List.mem_filter.mp member
    exact ⟨entry, found, of_decide_eq_true matched⟩
  · rintro ⟨entry, member, named, own⟩
    have keyed := Table.filter_key member (show entry.primaryKey = some coverageId from congrArg some named)
    have same : guard.coverage.rows.filter (fun other => decide (other.coverageId = coverageId ∧
        other.ledgerKey = store.ledgerKey)) = (guard.coverage.rows.filter fun other =>
          other.primaryKey = some coverageId).filter fun other => decide (other.ledgerKey = store.ledgerKey) := by
      rw [List.filter_filter]
      refine List.filter_congr fun other _ => ?_
      simp [Coverage.primaryKey, Bool.and_comm]
    rw [same, keyed]
    simp [own]

/-- The database with one coverage record changed. -/
def Guard.recovered (store : Store) (coverageId : String) (change : Coverage → Coverage)
    (keeps : ∀ entry, (change entry).primaryKey = entry.primaryKey) (guard : Guard) : Guard :=
  let selects := fun entry : Coverage => entry.coverageId = coverageId ∧ entry.ledgerKey = store.ledgerKey
  { guard with coverage := guard.coverage.update selects change keeps }

theorem updateCoverage_outcome {change : Coverage → Coverage}
    {keeps : ∀ entry, (change entry).primaryKey = entry.primaryKey} :
    (atomically (updateCoverage store coverageId change keeps) guard).1 = .ok () ↔
      guard.Covers store coverageId ∧ (guard.recovered store coverageId change keeps).CoverageIndexed := by
  rw [← except_unit_map (atomically _ _).1, outcome_of_atomically]
  constructor
  · rintro ⟨value, after, ran⟩
    replace ran := get_bind_ok.mp ran
    obtain ⟨indexed, ran⟩ := require_bind_ok.mp ran
    obtain ⟨_, _, required, ran⟩ := bind_ok.mp ran
    exact ⟨count_covered.mp (require_ok.mp required).1, indexed⟩
  · rintro ⟨covered, indexed⟩
    refine ⟨(), _,
      bind_ok.mpr ⟨_, _, get_ok.mpr ⟨rfl, rfl⟩, bind_ok.mpr ⟨(), _, require_ok.mpr ⟨indexed, rfl⟩,
      bind_ok.mpr ⟨(), _, require_ok.mpr ⟨count_covered.mpr covered, rfl⟩, set_ok.mpr rfl⟩⟩⟩⟩

theorem indexed_iff : guard.CoverageIndexed ↔ ∀ one ∈ guard.coverage.rows, ∀ two ∈ guard.coverage.rows,
    one.reservationId ≠ "" → one.ledgerKey = two.ledgerKey → one.reservationId = two.reservationId →
      one = two := by
  have distinct : guard.coverage.rows.Nodup := by
    have keys : (guard.coverage.rows.map fun entry => entry.coverageId).Nodup := by
      rw [← List.filterMap_eq_map]
      exact guard.coverage.unique
    exact keys.of_map
  rw [Guard.CoverageIndexed, List.nodup_map_iff_inj_on (distinct.filter _)]
  constructor
  · intro unique one member two also named key same
    refine unique one (List.mem_filter.mpr ⟨member, ?_⟩) two (List.mem_filter.mpr ⟨also, ?_⟩)
      (Prod.ext key same)
    · exact decide_eq_true named
    · exact decide_eq_true (same ▸ named)
  · intro unique one member two also same
    obtain ⟨key, id⟩ := Prod.mk.inj same
    obtain ⟨member, named⟩ := List.mem_filter.mp member
    exact unique one member two (List.mem_filter.mp also).1 (of_decide_eq_true named) key id

theorem indexed_send {reservationId : String} {change : Coverage → Coverage}
    {keeps : ∀ entry, (change entry).primaryKey = entry.primaryKey}
    (indexed : guard.CoverageIndexed) (covered : guard.Covers store coverageId)
    (key : ∀ entry, (change entry).ledgerKey = entry.ledgerKey)
    (named : ∀ entry, (change entry).reservationId = reservationId) :
    (guard.recovered store coverageId change keeps).CoverageIndexed ↔
      (reservationId ≠ "" → ∀ entry ∈ guard.coverage.rows, entry.ledgerKey = store.ledgerKey →
        entry.reservationId = reservationId → entry.coverageId = coverageId) := by
  have alone {one two : Coverage} (member : one ∈ guard.coverage.rows) (also : two ∈ guard.coverage.rows)
      (same : one.coverageId = two.coverageId) : one = two :=
    guard.coverage.eq_of_key member also rfl (congrArg some same.symm)
  rw [indexed_iff] at indexed ⊢
  constructor
  · intro unique nonempty entry member own same
    obtain ⟨chosen, found, id, ledger⟩ := covered
    by_contra different
    have changed : change chosen ∈ (guard.recovered store coverageId change keeps).coverage.rows :=
      List.mem_map.mpr ⟨chosen, found, if_pos ⟨id, ledger⟩⟩
    have kept : entry ∈ (guard.recovered store coverageId change keeps).coverage.rows :=
      List.mem_map.mpr ⟨entry, member, if_neg fun selected => different selected.1⟩
    have equal :=
      unique _ changed _ kept (named chosen ▸ nonempty) ((key chosen).trans (ledger.trans own.symm))
      ((named chosen).trans same.symm)
    have renamed : (change chosen).coverageId = chosen.coverageId := Option.some.inj (keeps chosen)
    exact different (equal ▸ renamed.trans id)
  · intro free one member two also nonempty ledger same
    obtain ⟨first, inside, rfl⟩ := List.mem_map.mp member
    obtain ⟨second, within, rfl⟩ := List.mem_map.mp also
    by_cases left : first.coverageId = coverageId ∧ first.ledgerKey = store.ledgerKey <;>
      by_cases right : second.coverageId = coverageId ∧ second.ledgerKey = store.ledgerKey
    · rw [alone inside within (left.1.trans right.1.symm)]
    · rw [if_pos left, named] at nonempty
      rw [if_pos left, if_neg right, key] at ledger
      rw [if_pos left, if_neg right, named] at same
      have own := ledger.symm.trans left.2
      exact absurd ⟨free nonempty second within own same.symm, own⟩ right
    · rw [if_neg left] at nonempty
      rw [if_neg left, if_pos right, key] at ledger
      rw [if_neg left, if_pos right, named] at same
      have own := ledger.trans right.2
      exact absurd ⟨free (same ▸ nonempty) first inside own same, own⟩ left
    · rw [if_neg left] at nonempty ⊢
      rw [if_neg right]
      rw [if_neg left, if_neg right] at ledger same
      exact indexed first inside second within nonempty ledger same

end other

theorem attemptedSend_outcome {store : Store} {coverageId : String} {ref : Option ReservationRef}
    {workload : Option String} (indexed : guard.CoverageIndexed) :
    (attemptedSend store coverageId ref workload guard).1 = .ok () ↔
      (∀ held ∈ ref, store.owns held ∧ guard.Unnamed store coverageId held) ∧
          guard.Covers store coverageId := by
  unfold attemptedSend
  split
  next owned =>
    refine updateCoverage_outcome.trans ?_
    constructor
    · rintro ⟨covered, unique⟩
      refine ⟨fun held member => ⟨owned held member, ?_⟩, covered⟩
      have free := (indexed_send indexed covered (fun _ => by rfl) fun _ => by rfl).mp unique
      rwa [Option.mem_def.mp member] at free
    · rintro ⟨free, covered⟩
      refine ⟨covered, (indexed_send indexed covered (fun _ => by rfl) fun _ => by rfl).mpr ?_⟩
      cases ref with
      | none => exact fun empty => absurd rfl empty
      | some held => exact (free held rfl).2
  next foreign =>
    refine iff_of_false (fun failed => by cases failed) ?_
    rintro ⟨free, _⟩
    exact foreign fun held member => (free held member).1

theorem settleAfterCommit_outcome {store : Store} {ref : ReservationRef} {actual : Projection}
    {now : Time} {monitor : Monitor} :
    ((settleAfterCommit store ref actual now monitor guard).1.map fun _ => ()) = .ok () ↔
      (Operation.settleAfterCommit store ref actual now monitor).Unchecked guard := by
  cases found : committedRow store ref actual monitor with
  | error =>
    simp only [settleAfterCommit, Operation.Unchecked, found]
    exact ⟨fun failed => (nomatch failed), fun ⟨_, failed, _⟩ => (nomatch failed)⟩
  | ok row =>
    simp only [settleAfterCommit, Operation.Unchecked, found, outcome_of_atomically]
    constructor
    · rintro ⟨value, after, ran⟩
      replace ran := get_bind_ok.mp ran
      obtain ⟨_, _, required, _⟩ := bind_ok.mp ran
      exact ⟨row, rfl, (require_ok.mp required).1⟩
    · rintro ⟨_, ⟨⟩, attributed⟩
      unfold settleStatements
      have required : (require _ (Failure.unavailable "committed reservation attribution changed")).run guard =
          .ok ((), guard) := require_ok.mpr ⟨attributed, rfl⟩
      rw [run_bind (get_ok.mpr ⟨rfl, rfl⟩), run_bind required]
      split
      · exact ⟨false, guard, rfl⟩
      · exact ⟨true, _, rfl⟩

/-- A store of another basis gets through exactly where the basis is not checked. -/
theorem Operation.outcome_other {basis : Basis} (indexed : guard.CoverageIndexed)
    (bound : guard.basisOf op.store.ledgerKey = some basis)
    (other : basis ≠ op.store.accountingBasis) :
    op.outcome guard = .ok () ↔ op.Unchecked guard := by
  cases op with
  | reserve store receipts call reservationId now pruning monitor =>
    change guard.basisOf store.ledgerKey = _ at bound
    refine iff_of_false (fun passed => ?_) fun unchecked => unchecked
    have failed : (reserveStatements store receipts call reservationId now pruning monitor).run guard =
        .error (.failure (.unavailable "accounting domain basis differs")) := by
      refine run_bind_error ?_
      change ((bindBasis store).run guard).mapError _ = _
      rw [bindBasis_other bound other]
      rfl
    simp only [outcome, Reservations.reserve, atomically, failed] at passed
    split at passed <;> cases passed
  | settleAfterCommit store ref actual now monitor => exact settleAfterCommit_outcome
  | releaseUnsent store ref now =>
    change guard.basisOf store.ledgerKey = _ at bound
    refine iff_of_false (fun passed => ?_) fun unchecked => unchecked
    simp only [outcome, Reservations.releaseUnsent] at passed
    split at passed
    · obtain ⟨_, _, ran⟩ := outcome_of_atomically.mp passed
      obtain ⟨_, _, checked, _⟩ := bind_ok.mp ran
      have checked := (read_ok.mp checked).1
      rw [checkBasis_other bound other] at checked
      cases checked
    · cases passed
  | beginRequest store sessionId ownerInstanceId coverageId windowSeconds now =>
    change guard.basisOf store.ledgerKey = _ at bound
    refine iff_of_false (fun passed => ?_) fun unchecked => unchecked
    change (Reservations.beginRequest ..).1 = _ at passed
    unfold Reservations.beginRequest at passed
    split at passed
    · cases passed
    · obtain ⟨_, _, ran⟩ := outcome_of_atomically.mp ((except_unit_map _).trans passed)
      obtain ⟨_, _, bind, _⟩ := bind_ok.mp ran
      rw [bindBasis_other bound other] at bind
      cases bind
  | attemptedSend store coverageId ref workload => exact attemptedSend_outcome indexed
  | recordWorkload store coverageId workload =>
    exact updateCoverage_outcome.trans (and_iff_left (indexed_update _ (fun _ => by rfl) (fun _ => by rfl) indexed))
  | recordTokens store coverageId observation =>
    exact updateCoverage_outcome.trans (and_iff_left (indexed_update _ (fun _ => by rfl) (fun _ => by rfl) indexed))
  | finishRequest store coverageId now =>
    exact updateCoverage_outcome.trans (and_iff_left (indexed_update _ (fun _ => by rfl) (fun _ => by rfl) indexed))
  | settleTokens store ref now monitor =>
    change guard.basisOf store.ledgerKey = _ at bound
    refine iff_of_false (fun passed => ?_) fun unchecked => unchecked
    simp only [outcome, Reservations.settleTokens] at passed
    split at passed
    · obtain ⟨_, _, ran⟩ := outcome_of_atomically.mp passed
      replace ran := get_bind_ok.mp ran
      obtain ⟨_, _, rows, _⟩ := bind_ok.mp ran
      exact tokenRows_other bound other (read_ok.mp rows).1
    · cases passed

/-- After any operations of any stores, all rows of a ledger carry the basis it was
first bound to, and no later operation binds another. An operation of a store of
another basis fails without changing anything, unless it acts on a row of the
ledger without looking at the basis. -/
theorem basis_exclusive (operations : List Operation) (ledgerKey : String) :
    (∀ hold ∈ (Guard.empty.run operations).reservations.rows, hold.ledgerKey = ledgerKey →
      hold.accountingBasis ≠ none ∧ (Guard.empty.run operations).basisOf ledgerKey = hold.accountingBasis) ∧
    (∀ entry ∈ (Guard.empty.run operations).coverage.rows, entry.ledgerKey = ledgerKey →
      entry.accountingBasis ≠ none ∧ (Guard.empty.run operations).basisOf ledgerKey = entry.accountingBasis) ∧
    ∀ basis, (Guard.empty.run operations).basisOf ledgerKey = some basis →
      (∀ later, ((Guard.empty.run operations).run later).basisOf ledgerKey = some basis) ∧
      ∀ op : Operation, op.store.ledgerKey = ledgerKey → op.store.accountingBasis ≠ basis →
        (op.Refused (Guard.empty.run operations) ↔ ¬op.Unchecked (Guard.empty.run operations)) := by
  have all : (Guard.empty.run operations).Bound := (Guard.run_binds operations .empty).bound .empty
  refine ⟨fun hold member own => own ▸ all.reservations hold member,
    fun entry member own => own ▸ all.coverage entry member, fun basis bound => ⟨fun later => ?_, ?_⟩⟩
  · exact (Guard.run_binds later _).kept ledgerKey basis bound
  · rintro op rfl other
    rw [Operation.refused_iff, not_iff_not]
    exact Operation.outcome_other all.indexed bound (Ne.symm other)

/-! A priced request, and a send marked by a process that accounts tokens. -/

private def pricedRequest : List Operation :=
  [.beginRequest sampleStore "session-a" "instance-a" "tpc_0a" 3600 (seconds 1750000000)]

private def foreignSend : Operation :=
  .attemptedSend { sampleStore with accountingBasis := .providerTokens } "tpc_0a" none none

theorem foreign_send_recorded :
    ¬∀ (operations : List Operation) (basis : Basis) (op : Operation),
      (Guard.empty.run operations).basisOf op.store.ledgerKey = some basis →
        op.store.accountingBasis ≠ basis →
      op.Refused (Guard.empty.run operations) := by
  intro exclusive
  have refused := exclusive pricedRequest .pricedUsage foreignSend (by decide +kernel) (by decide)
  have sent : ((foreignSend.apply (Guard.empty.run pricedRequest)).coverage.rows.map Coverage.attempts) = [1] := by
    decide +kernel
  have unsent : (Guard.empty.run pricedRequest).coverage.rows.map Coverage.attempts = [0] := by decide +kernel
  rw [refused.unchanged, unsent] at sent
  cases sent

end TokenPak.Reservations
