import TokenPak.Proofs.GenerationFence
import TokenPak.Proofs.StandingHolds

/-! The life of a hold through any run: admitted, closed at most once, never changed otherwise. -/

namespace TokenPak.Reservations
open Library Transaction

def Reservation.Open (hold : Reservation) : Prop := hold.status = .active ∨ hold.status = .expired

/-- What a hold may be later: itself, or closed by one settlement or release. -/
def Reservation.Becomes (earlier later : Reservation) : Prop :=
  later = earlier ∨ earlier.Open ∧ (later.status = .settled ∨ later.status = .released) ∧
    later = { earlier with status := later.status, actual := later.actual, settledAt := later.settledAt }

/-- The operation is an admission, and the hold is what it adds. -/
def Operation.Admits : Operation → Guard → Reservation → Prop
  | .reserve store receipts call reservationId now pruning monitor, guard, hold =>
      hold = call.hold store reservationId now ∧
    ∃ ref, (Reservations.reserve store receipts call reservationId now pruning monitor guard).1 =
      .ok (.admitted ref)
  | _, _, _ => False

/-- What a run may do to the holds of all ledgers. -/
structure History (operations : List Operation) (guard : Guard) : Prop where
  back : ∀ later ∈ (guard.run operations).reservations.rows, ∃ earlier, (earlier ∈ guard.reservations.rows ∨
    ∃ first op last, operations = first ++ op :: last ∧ op.Admits (guard.run first) earlier) ∧ earlier.Becomes later
  forth : ∀ hold ∈ guard.reservations.rows, hold.Open → hold ∈ (guard.run operations).reservations.rows ∨
    ∃ first last, operations = first ++ last ∧ ∃ closed ∈ (guard.run first).reservations.rows, ¬ closed.Open ∧ hold.Becomes closed

structure Evolves (admits : Reservation → Prop) (before after : Guard) : Prop where
  back : ∀ later ∈ after.reservations.rows, ∃ earlier,
    (earlier ∈ before.reservations.rows ∨ admits earlier) ∧ earlier.Becomes later
  forth : ∀ hold ∈ before.reservations.rows, hold.Open → ∃ later ∈ after.reservations.rows, hold.Becomes later

variable {store : Store} {before middle after : Guard} {admits : Reservation → Prop}

theorem closed_not_open {hold : Reservation}
    (closed : hold.status = .settled ∨ hold.status = .released) : ¬ hold.Open := by
  rintro (same | same) <;> simp [same] at closed

theorem Reservation.Becomes.trans {first second third : Reservation} (one : first.Becomes second)
    (two : second.Becomes third) :
    first.Becomes third := by
  rcases two with rfl | two
  · exact one
  · rcases one with rfl | one
    · exact .inr two
    · exact absurd two.1 (closed_not_open one.2.1)

theorem Evolves.of_reservations (same : after.reservations = before.reservations) :
    Evolves admits before after := by
  constructor
  · rw [same]
    exact fun later member => ⟨later, .inl member, .inl rfl⟩
  · rw [same]
    exact fun hold member _ => ⟨hold, member, .inl rfl⟩

theorem prepared {windowSeconds : Int} {now : SpendGuard.Time} {bound one : Unit}
    (bind : (bindBasis store).run before = .ok (one, middle))
    (maintain : (maintainHistory store windowSeconds now).run middle = .ok (bound, after))
    (hold : Reservation) :
    (hold ∈ after.reservations.rows → hold ∈ before.reservations.rows) ∧
      (hold ∈ before.reservations.rows → hold.Open → hold ∈ after.reservations.rows) := by
  have same : middle.reservations = before.reservations := by
    obtain ⟨rfl | rfl, _⟩ := bindBasis_ok bind <;> rfl
  rw [← same]
  obtain rfl | ⟨reservations, coverage, pruned, rfl⟩ := maintainHistory_ok maintain
  · exact ⟨id, fun member _ => member⟩
  · refine ⟨fun member => (List.mem_filter.mp member).1, fun member opened =>
      List.mem_filter.mpr ⟨member, decide_eq_true ?_⟩⟩
    exact fun gone => closed_not_open (pruned.finished hold member gone).2 opened

/-- Open holds are closed where they stand. -/
theorem Evolves.update {selects : Reservation → Prop} [DecidablePred selects]
    {change : Reservation → Reservation} {status : Status}
    (keeps : ∀ hold, (change hold).primaryKey = hold.primaryKey) (opened : ∀ hold, selects hold → hold.Open)
    (closed : status = .settled ∨ status = .released) (shape : ∀ hold, change hold =
      { hold with status := status, actual := (change hold).actual, settledAt := (change hold).settledAt })
    (same : after.reservations =
        before.reservations.update selects change keeps) : Evolves admits before after := by
  have becomes (hold : Reservation) : hold.Becomes (if selects hold then change hold else hold) := by
    split
    next selected =>
      have done : (change hold).status = status := by rw [shape]
      refine .inr ⟨opened hold selected, by rwa [done], ?_⟩
      rw [done]
      exact shape hold
    next => exact .inl rfl
  constructor
  · intro later member
    rw [same, Table.update_rows] at member
    obtain ⟨hold, there, rfl⟩ := List.mem_map.mp member
    exact ⟨hold, .inl there, becomes hold⟩
  · intro hold member _
    rw [same, Table.update_rows]
    exact ⟨_, List.mem_map_of_mem member, becomes hold⟩

/-- A transaction does what its committed runs do. -/
theorem atomically_evolves {Failing Value : Type} {statements : Transaction Guard Failing Value}
    (guard : Guard)
    (committed : ∀ value after, statements.run guard = .ok (value, after) → Evolves admits guard after) :
    Evolves admits guard (atomically statements guard).2 := by
  obtain ⟨value, after, ran, final⟩ | ⟨_, _, final⟩ := atomically_cases statements guard
  · rw [final]
    exact committed value after ran
  · rw [final]
    exact .of_reservations rfl

theorem Operation.evolves (op : Operation) (guard : Guard) :
    Evolves (op.Admits guard) guard (op.apply guard) := by
  cases op with
  | reserve store receipts call reservationId now pruning monitor =>
    obtain ⟨admitted, ran⟩ | ⟨_, unchanged⟩ :=
      reserve_cases store receipts call reservationId now pruning monitor guard
    · obtain ⟨bound, trimmed, reservations, bind, maintain, _, inserted, final⟩ := reserveStatements_ok ran
      obtain ⟨rows, _⟩ := Table.insert_eq_some inserted
      rw [apply, final]
      constructor
      · intro later member
        rcases List.mem_append.mp (rows ▸ member) with old | new
        · exact ⟨later, .inl ((prepared bind maintain later).1 old), .inl rfl⟩
        · exact ⟨later, .inr ⟨List.mem_singleton.mp new, _, admitted⟩, .inl rfl⟩
      · intro hold member opened
        exact ⟨hold, rows ▸ List.mem_append_left _ ((prepared bind maintain hold).2 member opened), .inl rfl⟩
    · rw [apply, unchanged]
      exact .of_reservations rfl
  | settleAfterCommit =>
    rw [apply, Reservations.settleAfterCommit]
    split
    next => exact .of_reservations rfl
    next =>
      apply atomically_evolves
      intro _ after ran
      obtain rfl | ⟨usage, recorded, _, _, rfl⟩ := settleStatements_ok ran
      · exact .of_reservations rfl
      · exact .update (fun _ => by rfl) (fun _ standing => standing.2.2) (.inl rfl) (fun _ => by rfl) rfl
  | releaseUnsent =>
    rw [apply, Reservations.releaseUnsent]
    split
    next =>
      apply atomically_evolves
      intro _ after ran
      obtain rfl | rfl := releaseStatements_ok ran
      · exact .of_reservations rfl
      · exact .update (fun _ => by rfl) (fun _ selected => .inl selected.2.2) (.inr rfl) (fun _ => by rfl) rfl
    next => exact .of_reservations rfl
  | beginRequest =>
    rw [apply, Reservations.beginRequest]
    split
    next => exact .of_reservations rfl
    next =>
      apply atomically_evolves
      intro _ after ran
      obtain ⟨bound, trimmed, coverage, bind, maintain, _, rfl⟩ := beginStatements_ok ran
      exact ⟨fun later member => ⟨later, .inl ((prepared bind maintain later).1 member), .inl rfl⟩,
        fun hold member opened => ⟨hold, (prepared bind maintain hold).2 member opened, .inl rfl⟩⟩
  | attemptedSend => exact .of_reservations (attemptedSend_reservations ..)
  | recordWorkload => exact .of_reservations (updateCoverage_reservations ..)
  | recordTokens => exact .of_reservations (updateCoverage_reservations ..)
  | finishRequest => exact .of_reservations (updateCoverage_reservations ..)
  | settleTokens =>
    rw [apply, Reservations.settleTokens]
    split
    next =>
      apply atomically_evolves
      intro _ after ran
      obtain rfl | ⟨usage, recorded, _, _, rfl⟩ := settleTokenStatements_ok ran
      · exact .of_reservations rfl
      · exact .update (fun _ => by rfl) (fun _ standing => standing.1.2.2) (.inl rfl) (fun _ => by rfl) rfl
    next => exact .of_reservations rfl

/-- Every hold that a run leaves stood before it or was admitted in it, and is that hold or the hold
closed once. A hold that stood before is there unchanged, or was closed in the run. -/
theorem hold_history (operations : List Operation) (guard : Guard) : History operations guard := by
  induction operations generalizing guard with
  | nil => exact ⟨fun later member => ⟨later, .inl member, .inl rfl⟩, fun hold member _ => .inl member⟩
  | cons op operations ih =>
    obtain ⟨back, forth⟩ := op.evolves guard
    obtain ⟨earlier_back, later_forth⟩ := ih (op.apply guard)
    constructor
    · intro later member
      obtain ⟨middle, there | ⟨first, other, last, rfl, admitted⟩, becomes⟩ := earlier_back later member
      · obtain ⟨earlier, origin, became⟩ := back middle there
        exact ⟨earlier, origin.imp_right fun admitted => ⟨[], op, operations, rfl, admitted⟩,
          became.trans becomes⟩
      · exact ⟨middle, .inr ⟨op :: first, other, last, rfl, admitted⟩, becomes⟩
    · intro hold member opened
      obtain ⟨later, there, rfl | closed⟩ := forth hold member opened
      · rcases later_forth later there opened with still | ⟨first, last, rfl, closed⟩
        · exact .inl still
        · exact .inr ⟨op :: first, last, rfl, closed⟩
      · exact .inr ⟨[op], operations, rfl, later, there, closed_not_open closed.2.1, .inr closed⟩

end TokenPak.Reservations
