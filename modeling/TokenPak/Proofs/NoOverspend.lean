import TokenPak.Proofs.RequestBooks
import TokenPak.Reservations.Execution

/-! Recorded usage and standing projections together stay under every cap. A
request moves from the holds to the recorded rows in two transactions; its usage
is counted once at every point in between. -/

namespace TokenPak.Reservations
open Library
open SpendGuard (Time seconds)
open SpendGuard.RollingCaps (RollingCapsConfig)

/-- The rule of a budgeted run: one policy, no forced request, and every row
committed for a reservation and within its projection. -/
def Budgeted (store : Store) (caps : RollingCapsConfig) (world : World) : Action → Prop
  | .claim _ call _ => call.caps = caps ∧ call.force = false
  | .commit request =>
      ∀ accounting row, world.requests request = some accounting → accounting.usage = .queued row →
      row.guardReservationId ≠ "" ∧ ∀ hold ∈ world.guard.reservations.rows, hold.ledgerKey = store.ledgerKey →
        hold.reservationId = row.guardReservationId → ∀ measure,
          row.amount measure ≤ hold.reserved.amount measure
  | _ => True

instance decidableBudgeted (store : Store) (caps : RollingCapsConfig) (world : World) :
    ∀ action, Decidable (Budgeted store caps world action)
  | .claim .. => inferInstanceAs (Decidable (_ ∧ _))
  | .commit request =>
    match held : world.requests request with
    | none => .isTrue fun _ _ found => (nomatch held.symm.trans found)
    | some accounting =>
      match queued : accounting.usage with
      | .queued row =>
        decidable_of_iff (row.guardReservationId ≠ "" ∧ ∀ hold ∈ world.guard.reservations.rows,
            hold.ledgerKey = store.ledgerKey → hold.reservationId = row.guardReservationId →
              ∀ dimension ∈ dimensions, row.amount dimension.measure ≤ hold.reserved.amount dimension.measure)
          ⟨fun fits other current found also => by
              cases held.symm.trans found
              cases queued.symm.trans also
              exact ⟨fits.1, fun hold member own same measure =>
                fits.2 hold member own same ⟨.fleet, measure⟩ (mem_dimensions _)⟩,
            fun fits => ⟨(fits _ _ held queued).1, fun hold member own same dimension _ =>
              (fits _ _ held queued).2 hold member own same dimension.measure⟩⟩
      | .unlogged => .isTrue fun _ _ found also => by
        cases held.symm.trans found
        exact nomatch queued.symm.trans also
      | .committed => .isTrue fun _ _ found also => by
        cases held.symm.trans found
        exact nomatch queued.symm.trans also
  | .tick .. | .bindDomain | .begin .. | .look | .decide .. | .abandon | .send .. | .sendUnrecorded ..
  | .recordWorkload .. | .recordTokens .. | .log .. | .settle .. | .settleTokens .. | .close .. | .release ..
  | .finish .. => .isTrue trivial

class Counting (store : Store) (counts : Row → Prop) : Prop where
  complete : ∀ row, row.CompleteFor store.ledgerKey → counts row
  named : ∀ row, counts row → row.guardLedgerKey = store.ledgerKey ∧ row.guardReservationId ≠ ""

section exposure
variable (counts : Row → Prop) [DecidablePred counts] (name : String) (dimension : Dimension)

/-- The usage of counting rows in the window; a negative value counts as none. -/
def countedUsage (cutoff : Int) (row : Row) : ℚ :=
  if counts row ∧ row.Since cutoff ∧ dimension.scope.covers name (sqlLower row.agentId) then
    max 0 (row.amount dimension.measure) else 0

/-- The projection of a hold that no counting row has replaced. -/
def openShare (rows : List Row) (hold : Reservation) : ℚ :=
  if dimension.scope.covers name hold.agentId ∧ ¬ ∃ row ∈ rows,
      counts row ∧ row.guardReservationId = hold.reservationId then
    hold.reserved.amount dimension.measure else 0

def exposure (cutoff : Int) (holds : List Reservation) (rows : List Row) : ℚ :=
  total (countedUsage counts name dimension cutoff) rows + total (openShare counts name dimension rows) holds

variable {counts name dimension}

theorem openShare_nonneg (rows : List Row) (hold : Reservation) :
    0 ≤ openShare counts name dimension rows hold := by
  unfold openShare
  split
  · exact hold.reserved.amount_nonneg _
  · exact le_refl _

/-- Time only takes rows out of the window. -/
theorem exposure_tick {earlier later : Int} (forward : earlier ≤ later) (holds : List Reservation)
    (rows : List Row) :
    exposure counts name dimension later holds rows ≤ exposure counts name dimension earlier holds rows := by
  refine add_le_add_left (total_mono fun row _ => ?_) _
  unfold countedUsage
  split
  next inside => rw [if_pos ⟨inside.1, le_trans forward inside.2.1, inside.2.2⟩]
  next =>
    split
    · exact le_max_left _ _
    · exact le_refl _

theorem exposure_sublist {cutoff : Int} {holds more : List Reservation} (sub : holds.Sublist more)
    (rows : List Row) :
    exposure counts name dimension cutoff holds rows ≤ exposure counts name dimension cutoff more rows :=
  add_le_add_right (total_sublist sub (openShare_nonneg rows)) _

/-- A committed row replaces the projection of its hold by no more than that. -/
theorem exposure_commit (store : Store) [counting : Counting store counts] {cutoff : Int}
    {holds : List Reservation}
    {rows : List Row} {row : Row} {hold : Reservation} (member : hold ∈ holds)
    (matched : World.Matches hold row)
    (same : hold.reservationId = row.guardReservationId)
    (first : ∀ other ∈ rows, other.guardKey ≠ some (store.ledgerKey, row.guardReservationId))
    (within : row.amount dimension.measure ≤ hold.reserved.amount dimension.measure) :
    exposure counts name dimension cutoff holds (rows ++ [row]) ≤
      exposure counts name dimension cutoff holds rows := by
  have fewer : ∀ hold ∈ holds,
      openShare counts name dimension (rows ++ [row]) hold ≤
      openShare counts name dimension rows hold := by
    intro hold _
    unfold openShare
    split
    next open_ =>
      have before : ¬ ∃ row ∈ rows, counts row ∧ row.guardReservationId = hold.reservationId := by
        rintro ⟨other, inside, count⟩
        exact open_.2 ⟨other, List.mem_append_left _ inside, count⟩
      rw [if_pos ⟨open_.1, before⟩]
    next =>
      split
      · exact hold.reserved.amount_nonneg _
      · exact le_refl _
  unfold exposure
  rw [total_append, total_cons, total_nil, add_zero, add_assoc, add_comm (countedUsage ..)]
  refine add_le_add_right ?_ _
  by_cases counted : counts row ∧ row.Since cutoff ∧ dimension.scope.covers name (sqlLower row.agentId)
  · refine total_shed member fewer ?_
    have open_ : dimension.scope.covers name hold.agentId ∧
        ¬ ∃ other ∈ rows, counts other ∧ other.guardReservationId = hold.reservationId := by
      refine ⟨matched.2.2 ▸ counted.2.2, ?_⟩
      rintro ⟨other, inside, count, id⟩
      obtain ⟨key, named⟩ := counting.named other count
      exact first other inside (Row.guardKey_eq_some.mpr ⟨same ▸ id ▸ named, key, id.trans same⟩)
    have closed : openShare counts name dimension (rows ++ [row]) hold = 0 := by
      refine if_neg fun still => still.2 ⟨row, by simp, counted.1, same.symm⟩
    rw [closed, zero_add, openShare, if_pos open_, countedUsage, if_pos counted]
    exact max_le (hold.reserved.amount_nonneg _) within
  · rw [countedUsage, if_neg counted, add_zero]
    exact total_mono fewer

theorem exposure_admitted {cutoff : Int} {holds : List Reservation} {rows : List Row} (hold : Reservation) :
    exposure counts name dimension cutoff (holds ++ [hold]) rows ≤
      exposure counts name dimension cutoff holds rows +
      if dimension.scope.covers name hold.agentId then hold.reserved.amount dimension.measure else 0 := by
  unfold exposure
  rw [total_append, total_cons, total_nil, add_zero, ← add_assoc]
  refine add_le_add_right ?_ _
  unfold openShare
  split
  next open_ => rw [if_pos open_.1]
  next =>
    split
    · exact hold.reserved.amount_nonneg _
    · exact le_refl _

end exposure

/-- What the check of an admission sees covers the exposure at its reading. -/
theorem exposure_le_seen {store : Store} {receipts : Receipts} {counts : Row → Prop} [DecidablePred counts]
    [counting : Counting store counts] {name : String} {windowSeconds : Int} {now : Time}
    {requirePrices : Bool}
    {monitor : Monitor} {guard : Guard} {used held : Usage} {committed : Committed}
    (lowered : Text.lower name = name)
    (priced : store.accountingBasis = .pricedUsage)
    (recorded : recorded store receipts name windowSeconds now requirePrices monitor guard =
      .ok (used, committed))
    (active : active store name now committed guard = .ok held) (dimension : Dimension) :
    exposure counts name dimension (windowStart windowSeconds now)
    (guard.standing store.ledgerKey) monitor.requests.rows ≤
      used dimension + held dimension := by
  obtain ⟨rfl, rfl, valid⟩ := recorded_ok priced recorded
  obtain ⟨_, sum⟩ := active_ok active
  rw [queryRecordedUsage_eq, lowered, sum]
  refine add_le_add (total_mono fun row member => ?_) (total_mono fun hold _ => ?_)
  · unfold countedUsage
    split
    next counted =>
      rw [if_pos counted.2, max_eq_right]
      exact (valid row member counted.2.1).1.amount_nonneg _
    next =>
      split
      next inside => exact (valid row member inside.1).1.amount_nonneg _
      next => exact le_refl _
  · unfold openShare activeShare Reservation.share
    rw [priced]
    split
    next open_ =>
      rw [if_pos, if_pos ⟨.inl rfl, open_.1⟩]
      refine committedUsage_eq_none.mpr ?_
      rintro ⟨row, member, complete, same⟩
      exact open_.2 ⟨row, member, counting.complete row complete, same⟩
    next =>
      split
      · split
        · exact hold.reserved.amount_nonneg _
        · exact le_refl _
      · exact le_refl _

theorem windowStart_mono {windowSeconds : Int} {earlier later : Time} (forward : earlier ≤ later) :
    windowStart windowSeconds earlier ≤ windowStart windowSeconds later :=
  Int.ediv_le_ediv (by decide) (Int.sub_le_sub_right forward _)

theorem exposure_fleet {counts : Row → Prop} [DecidablePred counts] {dimension : Dimension}
    (fleet : dimension.scope = .fleet) (name other : String) (cutoff : Int)
    (holds : List Reservation) (rows : List Row) :
    exposure counts name dimension cutoff holds rows = exposure counts other dimension cutoff holds rows := by
  unfold exposure
  congr 1
  · exact total_congr fun row _ => by simp [countedUsage, Scope.covers, fleet]
  · exact total_congr fun hold _ => by simp [openShare, Scope.covers, fleet]

def World.exposure (store : Store) (caps : RollingCapsConfig) (counts : Row → Prop)
    [DecidablePred counts] (name : String)
    (dimension : Dimension) (world : World) : ℚ :=
  Reservations.exposure counts name dimension (windowStart caps.windowSeconds world.clock)
    (world.guard.standing store.ledgerKey) world.monitor.requests.rows

/-- The invariant of budgeted runs. An admission that has read the monitor has
seen at least the present exposure: only rows and time can have moved since. -/
structure Within (store : Store) (caps : RollingCapsConfig) (counts : Row → Prop)
    [DecidablePred counts] (world : World) :
    Prop where
  books : World.Books store world
  carried : ∀ row ∈ world.monitor.requests.rows, row.guardLedgerKey = store.ledgerKey ∧
    row.guardReservationId ≠ ""
  called : ∀ reading, world.lock = some reading → reading.call.caps = caps ∧ reading.call.force = false ∧
    reading.now ≤ world.clock
  capped : ∀ name dimension, 0 < capOf caps dimension → (dimension.scope = .agent → name ≠ "") →
    world.exposure store caps counts name dimension ≤ capOf caps dimension
  viewed : ∀ reading monitor, world.lock = some reading → reading.monitor = some monitor → ∀ name dimension,
    world.exposure store caps counts name dimension ≤ exposure counts name dimension
      (windowStart caps.windowSeconds reading.now)
        (world.guard.standing store.ledgerKey) monitor.requests.rows

namespace Within
variable {store : Store} {receipts : Receipts} {caps : RollingCapsConfig} {counts : Row → Prop}
  [DecidablePred counts]
  [counting : Counting store counts] {world after : World}

omit counting in
theorem next (within : Within store caps counts world) (books : World.Books store after)
    (carried : ∀ row ∈ after.monitor.requests.rows, row.guardLedgerKey = store.ledgerKey ∧
      row.guardReservationId ≠ "")
    (clock : world.clock ≤ after.clock)
    (lock : ∀ reading, after.lock = some reading → world.lock = some reading ∧ after.guard = world.guard)
    (less : ∀ name dimension, after.exposure store caps counts name dimension ≤
      world.exposure store caps counts name dimension) : Within store caps counts after := by
  refine ⟨books, carried, fun reading locked => ?_, fun name dimension positive named => ?_,
    fun reading monitor locked looked name dimension => ?_⟩
  · obtain ⟨policy, free, started⟩ := within.called reading (lock reading locked).1
    exact ⟨policy, free, le_trans started clock⟩
  · exact le_trans (less name dimension) (within.capped name dimension positive named)
  · obtain ⟨before, same⟩ := lock reading locked
    rw [same]
    exact le_trans (less name dimension) (within.viewed reading monitor before looked name dimension)

omit counting in
theorem of_guard {guard : Guard} {closes : String → Status → Prop} (within : Within store caps counts world)
    (books : World.Books store after) (monitor : after.monitor = world.monitor)
    (clock : after.clock = world.clock)
    (free : after.lock = none) (kept : Keeps store.ledgerKey closes world.guard guard)
    (same : after.guard = guard) :
    Within store caps counts after := by
  refine within.next books (monitor ▸ within.carried) (le_of_eq clock.symm) (fun reading locked => ?_)
    fun name dimension => ?_
  · exact nomatch free.symm.trans locked
  · rw [World.exposure, World.exposure, monitor, clock, same]
    exact exposure_sublist kept.standing _

omit counting in
theorem of_same (within : Within store caps counts world) (books : World.Books store after)
    (guard : after.guard = world.guard) (monitor : after.monitor.requests = world.monitor.requests)
    (clock : after.clock = world.clock)
    (lock : ∀ reading, after.lock = some reading → world.lock = some reading) :
    Within store caps counts after := by
  refine within.next books (monitor ▸ within.carried) (le_of_eq clock.symm) (fun reading locked => ?_)
    fun name dimension => ?_
  · exact ⟨lock reading locked, guard⟩
  · rw [World.exposure, World.exposure, monitor, clock, guard]

/-- An admission finds room for its projection above all present exposure. -/
theorem decided {reading : Reading} {accounting : Accounting} {pruning : Time} {monitor : Monitor}
    {guard : Guard}
    {outcome : Except Failure Outcome} (within : Within store caps counts world)
    (priced : store.accountingBasis = .pricedUsage) (enabled : caps.enabled = true)
    (books : World.Books store after) (locked : world.lock = some reading)
    (looked : reading.monitor = some monitor)
    (held : world.requests reading.request = some accounting)
    (reserved : reserve store receipts reading.call reading.reservationId reading.now pruning monitor world.guard =
      (outcome, guard))
    (same : after.guard = guard) (rows : after.monitor = world.monitor) (clock : after.clock = world.clock)
    (free : after.lock = none) : Within store caps counts after := by
  obtain ⟨policy, unforced, _⟩ := within.called reading locked
  obtain ⟨_, _, accounted⟩ := within.books.reading reading locked
  obtain ⟨_, _, _, agent⟩ := accounted accounting held
  have lowered : Text.lower reading.call.agent = reading.call.agent := by
    rw [Call.agent, agent, accounting.attribution.lowered, accounting.attribution.lowered]
  obtain ⟨_, rfl⟩ | ⟨trimmed, _, kept, checked, added⟩ := World.reserve_outcome reserved
  · exact within.of_guard books rows clock free (.idle rfl) same
  -- The cap check ran on the trimmed holds, which are the standing ones.
  obtain ⟨used, committed, active_, usage, holds, room⟩ := checkCaps_ok (checked unforced (policy ▸ enabled))
  have standing : trimmed.standing store.ledgerKey = world.guard.standing store.ledgerKey :=
    kept.undisturbed fun _ _ closed => closed
  have grown : after.guard.standing store.ledgerKey =
      world.guard.standing store.ledgerKey ++
          [reading.call.hold store reading.reservationId reading.now] := by
    rw [← standing, same, Guard.standing, added, List.filter_append]
    simp [Guard.standing, Reservation.Unresolved, Call.hold]
  have seen (dimension : Dimension) : world.exposure store caps counts reading.call.agent dimension ≤
      used dimension + active_ dimension := by
    refine le_trans (within.viewed reading monitor locked looked _ dimension) ?_
    rw [← standing, ← policy]
    exact exposure_le_seen lowered priced usage holds dimension
  have unlocked {reading : Reading} (locked : after.lock = some reading) {P : Prop} : P := by
    cases free.symm.trans locked
  refine ⟨books, rows ▸ within.carried, fun _ locked => unlocked locked,
    fun name dimension positive named => ?_,
    fun _ _ locked => unlocked locked⟩
  rw [World.exposure, grown, rows, clock]
  refine le_trans (exposure_admitted _) ?_
  split
  next covers =>
    have capped : reading.call.Capped dimension := by
      refine ⟨policy ▸ positive, fun scope => ?_⟩
      obtain fleet | own := covers
      · rw [fleet] at scope
        cases scope
      · exact fun empty => named scope (own.symm.trans empty)
    have own : world.exposure store caps counts name dimension =
        world.exposure store caps counts reading.call.agent dimension := by
      obtain fleet | own := covers
      · exact exposure_fleet fleet ..
      · exact congrArg (world.exposure store caps counts · dimension) own.symm
    have fits := room dimension capped
    have covered := seen dimension
    rw [policy] at fits
    change world.exposure store caps counts name dimension +
      reading.call.projection.amount dimension.measure ≤ _
    rw [own]
    linarith
  next =>
    rw [add_zero]
    exact within.capped name dimension positive named

theorem step {action : Action} (within : Within store caps counts world)
    (priced : store.accountingBasis = .pricedUsage)
    (enabled : caps.enabled = true) (rule : Budgeted store caps world action)
    (step : World.Step store receipts world action after) : Within store caps counts after := by
  have books : World.Books store after := within.books.step priced step
  cases step with
  | tick forward =>
    refine within.next books within.carried forward (fun _ locked => ⟨locked, rfl⟩) fun name dimension => ?_
    exact exposure_tick (windowStart_mono forward) _ _
  | bindDomain => exact within.of_same books rfl (World.bindDomain_requests ..) rfl fun _ locked => locked
  | begin bound free new fresh begun =>
      exact within.of_guard books rfl rfl free (beginRequest_keeps begun) rfl
  | claim bound free held unreserved unsent unlogged going session agent owner named fresh =>
    refine ⟨books, within.carried, fun reading locked => ?_, within.capped,
      fun reading monitor locked looked => ?_⟩
    · cases locked
      exact ⟨rule.1, rule.2, le_refl _⟩
    · cases locked
      cases looked
  | @look reading locked blind =>
    refine ⟨books, within.carried, fun current now => ?_, within.capped,
      fun current monitor now looked name dimension => ?_⟩
    · cases now
      exact within.called reading locked
    · cases now
      cases looked
      exact exposure_tick (windowStart_mono (within.called reading locked).2.2) _ _
  | decide locked looked held _ _ reserved =>
    exact within.decided priced enabled books locked looked held reserved rfl rfl rfl rfl
  | abandon => exact within.of_same books rfl rfl rfl fun _ locked => nomatch locked
  | send free held going unlogged tokens marked =>
    have same := (congrArg (Guard.reservations ∘ Prod.snd) marked).symm.trans (attemptedSend_reservations ..)
    exact within.of_guard books rfl rfl free (.idle same) rfl
  | sendUnrecorded free held going tokens => exact nomatch priced.symm.trans tokens
  | recordWorkload free held stored =>
    have same := (congrArg (Guard.reservations ∘ Prod.snd) stored).symm.trans (updateCoverage_reservations ..)
    exact within.of_guard books rfl rfl free (.idle same) rfl
  | recordTokens free held stored =>
    have same := (congrArg (Guard.reservations ∘ Prod.snd) stored).symm.trans (updateCoverage_reservations ..)
    exact within.of_guard books rfl rfl free (.idle same) rfl
  | log held going sent unlogged own => exact within.of_same books rfl rfl rfl fun _ locked => locked
  | @commit request row accounting requests held queued inserted =>
    obtain ⟨rows, fresh⟩ := Table.insert_eq_some inserted
    obtain ⟨named, fits⟩ := rule accounting row held queued
    obtain ⟨ref, _, own, key, _, hold, standing, same, matched⟩ := within.books.queued_hold held queued named
    refine within.next books (fun other member => ?_) (le_refl _)
      (fun _ locked => ⟨locked, rfl⟩) fun name dimension => ?_
    · change other ∈ requests.rows at member
      rw [rows] at member
      obtain member | new := List.mem_append.mp member
      · exact within.carried other member
      · obtain rfl := List.mem_singleton.mp new
        exact ⟨(Row.guardKey_eq_some.mp key).2.1, named⟩
    · change exposure counts name dimension _ _ requests.rows ≤ _
      rw [rows]
      obtain ⟨present, unresolved⟩ := mem_standing.mp standing
      refine exposure_commit store standing matched same (fun other member keyed => ?_)
        (fits hold present unresolved.1 same _)
      exact fresh _ (own ▸ key) (List.mem_filterMap.mpr ⟨other, member, keyed⟩)
  | settle free named earlier => exact within.of_guard books rfl rfl free (settleAfterCommit_keeps ..) rfl
  | settleTokens free =>
    exact within.of_guard books rfl rfl free (.idle (congrArg Guard.reservations
      (settleTokens_priced priced ..))) rfl
  | close held => exact within.of_same books rfl rfl rfl fun _ locked => locked
  | release free held closing reserved unsent =>
      exact within.of_guard books rfl rfl free (releaseUnsent_keeps ..) rfl
  | finish free held closing unfinished ended =>
    have same := (congrArg (Guard.reservations ∘ Prod.snd) ended).symm.trans (updateCoverage_reservations ..)
    exact within.of_guard books rfl rfl free (.idle same) rfl

omit counting in
theorem fresh (clock : Time) (domain : Option Domain) :
    Within store caps counts (World.fresh clock domain) := by
  refine ⟨.fresh clock domain, fun _ member => absurd member List.not_mem_nil, fun _ locked =>
    (nomatch locked),
    fun name dimension positive _ => ?_, fun _ _ locked => (nomatch locked)⟩
  change (0 : ℚ) + 0 ≤ _
  rw [add_zero]
  exact le_of_lt positive

theorem reached {clock : Time} {domain : Option Domain} (priced : store.accountingBasis = .pricedUsage)
    (enabled : caps.enabled = true)
    (reached : World.Reaches store receipts (Budgeted store caps) (World.fresh clock domain) world) :
    Within store caps counts world := by
  induction reached with
  | refl => exact .fresh clock domain
  | tail _ next ih =>
    obtain ⟨action, rule, step⟩ := next
    exact ih.step priced enabled rule step

omit counting in
theorem recorded_le {dimension : Dimension} {agentId : String} (within : Within store caps counts world)
    (positive : 0 < capOf caps dimension) (named : dimension.scope = .agent → Text.lower agentId ≠ "") :
    queryRecordedUsage (windowStart caps.windowSeconds world.clock) agentId
        (world.monitor.requests.rows.filter counts) dimension +
      total (openShare counts (Text.lower agentId) dimension world.monitor.requests.rows)
        (world.guard.standing store.ledgerKey) ≤ capOf caps dimension := by
  refine le_trans (add_le_add_left ?_ _) (within.capped _ dimension positive named)
  rw [queryRecordedUsage_eq, total_filter]
  refine total_mono fun row _ => ?_
  simp only [countedUsage, decide_eq_true_eq]
  split
  next counted =>
    split
    next inside =>
      rw [if_pos ⟨counted, inside⟩]
      exact le_max_right _ _
    next outside => rw [if_neg fun all => outside all.2]
  next uncounted => rw [if_neg fun all => uncounted all.1]

end Within

def Row.CarriesFor (ledgerKey : String) (row : Row) : Prop :=
  row.guardLedgerKey = ledgerKey ∧ row.guardReservationId ≠ ""

instance (ledgerKey : String) (row : Row) : Decidable (row.CarriesFor ledgerKey) :=
  inferInstanceAs (Decidable (_ ∧ _))

instance (store : Store) : Counting store (Row.CarriesFor store.ledgerKey) :=
  ⟨fun _ complete => ⟨complete.1, complete.2.1⟩, fun _ carries => carries⟩

instance (store : Store) : Counting store (Row.CompleteFor store.ledgerKey) :=
  ⟨fun _ complete => complete, fun _ complete => ⟨complete.1, complete.2.1⟩⟩

theorem lower_ne_empty {text : String} (named : text ≠ "") : Text.lower text ≠ "" := by
  intro empty
  refine named (String.toList_inj.mp ?_)
  have nil : text.toList.map Text.lowerChar = [] := by
    rw [← String.toList_ofList (l := text.toList.map _)]
    exact congrArg String.toList empty
  exact List.map_eq_nil_iff.mp nil

/-- Two requests hold six and four dollars; the first commits five. -/
def budgetedRun (complete : Bool) : List Action :=
  sampleAdmission 0 ⟨6, 3, 2, 1, six_nonneg⟩ "tpr_0a" "tpc_0a" ++ sampleAdmission 1 ⟨4, 3, 2, 1,
    four_nonneg⟩ "tpr_0b" "tpc_0b" ++
    sampleUsage 0 (sampleRow "tpr_0a" 5 complete)

end TokenPak.Reservations
