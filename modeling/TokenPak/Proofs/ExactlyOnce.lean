import Mathlib.Data.List.Dedup
import TokenPak.Proofs.GenerationFence
import TokenPak.Proofs.RequestBooks
import TokenPak.Reservations.Snapshot

/-! Each reservation is counted once. Its usage moves from the holds to the
recorded rows by a commit and a settlement that may be lost, and both readers
join the two tables in every state in between. -/

namespace TokenPak.Reservations
open Library Transaction
open SpendGuard (Time seconds)

def Guard.ledgerHolds (ledgerKey : String) (guard : Guard) : List Reservation :=
  (guard.ledgerRows ledgerKey).1

def Row.Completes (ledgerKey : String) (hold : Reservation) (row : Row) : Prop :=
  row.CompleteFor ledgerKey ∧ row.guardReservationId = hold.reservationId

section shares
variable (ledgerKey agentId : String) (dimension : Dimension) (cutoff : Int)

/-- An amount of the reservation, if the dimension covers its agent. -/
def Reservation.charge (hold : Reservation) (amount : ℚ) : ℚ :=
  if dimension.scope.covers agentId hold.agentId then amount else 0

def rowShare (row : Row) : ℚ :=
  if row.Since cutoff ∧
    dimension.scope.covers agentId (sqlLower row.agentId) then row.amount dimension.measure else 0

def recordedShare (rows : List Row) (hold : Reservation) : ℚ :=
  total (rowShare agentId dimension cutoff) (rows.filter (·.guardKey = some (ledgerKey, hold.reservationId)))

def otherUsage (holds : List Reservation) (rows : List Row) : ℚ :=
  total (rowShare agentId dimension cutoff)
    (rows.filter fun row => ∀ hold ∈ holds, row.guardKey ≠ some (ledgerKey, hold.reservationId))

/-- The reservation's part of the active holds. -/
def pendingShare (committed : Committed) (hold : Reservation) : ℚ :=
  if hold.Unresolved ledgerKey then activeShare .pricedUsage agentId committed dimension hold else 0

/-- How a reservation is counted: by its actual usage while its row is in the
window, by its projection without a complete row, and not at all once released.
`stale` is what a reader makes of one whose row has left the window. -/
structure Counted (rows : List Row) (stale : Reservation → ℚ) (hold : Reservation)
    (recorded pending : ℚ) : Prop where
  actual : ∀ row ∈ rows, row.Completes ledgerKey hold → row.Since cutoff →
    recorded = hold.charge agentId dimension (row.amount dimension.measure) ∧ pending = 0
  projection : hold.status ≠ .released → (∀ row ∈ rows, ¬ row.Completes ledgerKey hold) →
    recorded = 0 ∧ pending = hold.charge agentId dimension (hold.reserved.amount dimension.measure)
  aged : ∀ row ∈ rows, row.Completes ledgerKey hold → ¬ row.Since cutoff → recorded = 0 ∧ pending = stale hold
  released : hold.status = .released → (∀ row ∈ rows, ¬ row.Completes ledgerKey hold) →
    recorded = 0 ∧ pending = 0

/-- Two totals that count every reservation of the ledger, each in one way. -/
structure CountedOnce (rows : List Row) (holds : List Reservation) (committed : Committed)
    (stale : Reservation → ℚ)
    (used held : ℚ) : Prop where
  recorded : used = total (recordedShare ledgerKey agentId dimension cutoff rows) holds +
    otherUsage ledgerKey agentId dimension cutoff holds rows
  pending : held = total (pendingShare ledgerKey agentId dimension committed) holds
  counted : ∀ hold ∈ holds, Counted ledgerKey agentId dimension cutoff rows stale hold
    (recordedShare ledgerKey agentId dimension cutoff rows hold)
      (pendingShare ledgerKey agentId dimension committed hold)

variable {ledgerKey agentId dimension cutoff}
variable {hold : Reservation} {guard : Guard}

theorem Row.Completes.keyed {row : Row} (completes : row.Completes ledgerKey hold) :
    row.guardKey = some (ledgerKey, hold.reservationId) :=
  Row.guardKey_eq_some.mpr ⟨completes.2 ▸ completes.1.2.1, completes.1.1, completes.2⟩

theorem share_priced (hold : Reservation) : hold.share .pricedUsage agentId dimension =
    hold.charge agentId dimension (hold.reserved.amount dimension.measure) := by
  simp [Reservation.share, Reservation.charge]

theorem recordedShare_row {monitor : Monitor} {row : Row} (member : row ∈ monitor.requests.rows)
    (keyed : row.guardKey = some (ledgerKey, hold.reservationId)) :
    recordedShare ledgerKey agentId dimension cutoff monitor.requests.rows hold =
      rowShare agentId dimension cutoff row := by
  rw [recordedShare, Table.filter_key member keyed, total_cons, total_nil, add_zero]

theorem recordedShare_idle {rows : List Row}
    (outside : ∀ row ∈ rows, row.guardKey = some (ledgerKey, hold.reservationId) → ¬ row.Since cutoff) :
    recordedShare ledgerKey agentId dimension cutoff rows hold = 0 := by
  refine total_eq_zero fun row kept => ?_
  obtain ⟨member, keyed⟩ := List.mem_filter.mp kept
  exact if_neg fun inside => outside row member (of_decide_eq_true keyed) inside.1

theorem used_split (rows : List Row) : total (rowShare agentId dimension cutoff) rows =
      total (recordedShare ledgerKey agentId dimension cutoff rows) (guard.ledgerHolds ledgerKey) +
        otherUsage ledgerKey agentId dimension cutoff (guard.ledgerHolds ledgerKey) rows := by
  have ids : (guard.reservations.rows.map Reservation.reservationId).Nodup := by
    have unique : (guard.reservations.rows.filterMap (some ∘ Reservation.reservationId)).Nodup :=
      guard.reservations.unique
    rwa [List.filterMap_eq_map] at unique
  have distinct : ((guard.ledgerHolds ledgerKey).map fun hold => (ledgerKey, hold.reservationId)).Nodup := by
    rw [show (fun hold : Reservation => (ledgerKey, hold.reservationId)) =
      (fun id => (ledgerKey, id)) ∘ Reservation.reservationId from rfl, ← List.map_map]
    refine List.Nodup.map (fun _ _ same => (Prod.mk.inj same).2) ?_
    exact (List.filter_sublist.map Reservation.reservationId).nodup ids
  rw [total_fibers (rowShare agentId dimension cutoff) Row.guardKey distinct rows]
  congr 1
  · exact congrArg List.sum (List.map_map ..)
  · refine congrArg (total _) (List.filter_congr fun row _ => ?_)
    simp

theorem held_split {committed : Committed} :
    total (activeShare .pricedUsage agentId committed dimension) (guard.standing ledgerKey) =
      total (pendingShare ledgerKey agentId dimension committed) (guard.ledgerHolds ledgerKey) := by
  rw [Guard.standing, Guard.ledgerHolds, Guard.ledgerRows, total_filter, total_filter]
  refine total_congr fun hold _ => ?_
  by_cases own : hold.ledgerKey = ledgerKey <;> simp [pendingShare, Reservation.Unresolved, own]

theorem mem_ledgerHolds :
    hold ∈ guard.ledgerHolds ledgerKey ↔ hold ∈ guard.reservations.rows ∧ hold.ledgerKey = ledgerKey := by
  simp [Guard.ledgerHolds, Guard.ledgerRows]

end shares

section readers
variable {store : Store} {receipts : Receipts} {world : World} {agentId : String}
  {dimension : Dimension} {cutoff : Int}

/-- The books settle every case but the last; what a reader knows of committed
reservations needs to be right for rows in the window and for none at all. -/
theorem counted_of_books {committed : Committed} {stale : Reservation → ℚ} {hold : Reservation}
    (books : World.Books store world)
    (valid : ∀ row ∈ world.monitor.requests.rows, row.Since cutoff →
      row.Measurable ∧ (row.guardReservationId ≠ "" → row.guardUsageComplete = true))
    (present : ∀ row ∈ world.monitor.requests.rows, row.Completes store.ledgerKey hold → row.Since cutoff →
      committed hold.reservationId ≠ none)
    (absent : (∀ row ∈ world.monitor.requests.rows, ¬ row.Completes store.ledgerKey hold) →
      committed hold.reservationId = none)
    (aged : ∀ row ∈ world.monitor.requests.rows, row.Completes store.ledgerKey hold → ¬ row.Since cutoff →
      pendingShare store.ledgerKey agentId dimension committed hold = stale hold)
    (member : hold ∈ world.guard.ledgerHolds store.ledgerKey) :
    Counted store.ledgerKey agentId dimension cutoff world.monitor.requests.rows stale hold
      (recordedShare store.ledgerKey agentId dimension cutoff world.monitor.requests.rows hold)
      (pendingShare store.ledgerKey agentId dimension committed hold) := by
  obtain ⟨reserved, own⟩ := mem_ledgerHolds.mp member
  have idle (none : ∀ row ∈ world.monitor.requests.rows, ¬ row.Completes store.ledgerKey hold) :
      recordedShare store.ledgerKey agentId dimension cutoff world.monitor.requests.rows hold = 0 := by
    refine recordedShare_idle fun row present keyed inside => none row present ?_
    obtain ⟨named, key, same⟩ := Row.guardKey_eq_some.mp keyed
    exact ⟨⟨key, same ▸ named, (valid row present inside).2 (same ▸ named)⟩, same⟩
  constructor
  · intro row found completes inside
    obtain ⟨_, _, agent⟩ := books.attributed hold reserved row found completes.keyed
    constructor
    · rw [recordedShare_row found completes.keyed, rowShare, Reservation.charge, agent]
      simp [inside]
    · rw [pendingShare, activeShare, if_neg (present row found completes inside), ite_self]
  · intro kept none
    have unresolved : hold.Unresolved store.ledgerKey := by
      refine ⟨own, ?_⟩
      cases status : hold.status with
      | active => exact .inl rfl
      | expired => exact .inr rfl
      | settled =>
        obtain ⟨row, found, complete, same⟩ := books.settled hold reserved own status
        exact absurd ⟨complete, same⟩ (none row found)
      | released => exact absurd status kept
    refine ⟨idle none, ?_⟩
    rw [pendingShare, if_pos unresolved, activeShare, if_pos (absent none), share_priced]
  · intro row found completes outside
    refine ⟨?_, aged row found completes outside⟩
    rw [recordedShare_row found completes.keyed, rowShare, if_neg fun inside => outside inside.1]
  · intro released none
    refine ⟨idle none, if_neg fun unresolved => ?_⟩
    simp [Reservation.Unresolved, released] at unresolved

/-- The two totals as they are computed inside `reserve`. -/
def reserveTotals (store : Store) (receipts : Receipts) (call : Call) (now pruning : Time) (monitor : Monitor)
    (guard : Guard) : Except Failure (Usage × Usage) := do
  let (_, bound) ← (bindBasis store).run guard
  let (_, trimmed) ← (maintainHistory store call.caps.windowSeconds pruning).run bound
  let (used, committed) ← recorded store receipts call.agent call.caps.windowSeconds now call.requirePrices monitor trimmed
  let held ← active store call.agent now committed trimmed
  return (used, held)

theorem recordedUsage_split (lowered : Text.lower agentId = agentId) (rows : List Row) (guard : Guard) :
    queryRecordedUsage cutoff agentId rows dimension =
      total (recordedShare store.ledgerKey agentId dimension cutoff rows)
        (guard.ledgerHolds store.ledgerKey) +
        otherUsage store.ledgerKey agentId dimension cutoff (guard.ledgerHolds store.ledgerKey) rows := by
  rw [queryRecordedUsage_eq, lowered]
  exact used_split rows

variable {now : Time} {sessionId : String}

theorem reserve_counted {call : Call} {pruning : Time} {used held : Usage}
    (priced : store.accountingBasis = .pricedUsage) (books : World.Books store world)
    (computed : reserveTotals store receipts call now pruning world.monitor world.guard = .ok (used, held))
    (dimension : Dimension) :
    CountedOnce store.ledgerKey call.agent dimension (windowStart call.caps.windowSeconds now) world.monitor.requests.rows
      (world.guard.ledgerHolds store.ledgerKey)
        (committedUsage store.ledgerKey world.monitor.requests.rows) (fun _ => 0)
      (used dimension) (held dimension) := by
  obtain ⟨⟨_, bound⟩, binds, computed⟩ := except_bind_ok.mp computed
  obtain ⟨⟨_, trimmed⟩, trims, computed⟩ := except_bind_ok.mp computed
  obtain ⟨⟨_, _⟩, usage, computed⟩ := except_bind_ok.mp computed
  obtain ⟨_, holds, computed⟩ := except_bind_ok.mp computed
  cases computed
  obtain ⟨rfl, rfl, valid⟩ := recorded_ok priced usage
  have kept : Keeps store.ledgerKey (fun _ _ => False) world.guard trimmed :=
    (bindBasis_keeps binds).trans (maintainHistory_keeps trims)
  have known {hold : Reservation} {row : Row} (member : row ∈ world.monitor.requests.rows)
      (completes : row.Completes store.ledgerKey hold) :
      committedUsage store.ledgerKey world.monitor.requests.rows hold.reservationId ≠ none :=
    fun none => committedUsage_eq_none.mp none ⟨row, member, completes⟩
  refine ⟨recordedUsage_split (Text.lower_lower _) _ _, ?_, fun hold member => ?_⟩
  · rw [(active_ok holds).2, kept.undisturbed fun _ _ closed => closed, priced]
    exact held_split
  · refine counted_of_books books valid (fun row found completes _ => known found completes) (fun none => ?_)
      (fun row found completes _ => ?_) member
    · exact committedUsage_eq_none.mpr fun ⟨row, found, completes⟩ => none row found completes
    · rw [pendingShare, activeShare, if_neg (known found completes), ite_self]

theorem committedSince_eq_none {ledgerKey id : String} {rows : List Row} (named : id ≠ "") :
    committedSince ledgerKey cutoff rows id = none ↔
      ∀ row ∈ rows, row.CompleteFor ledgerKey → row.guardReservationId = id → ¬ row.Since cutoff := by
  simp only [committedSince, since, correlate_eq_none, List.mem_filter, decide_eq_true_eq]
  constructor
  · intro none row member complete same inside
    exact none row ⟨⟨member, inside⟩, complete.1, complete.2.2⟩ same
  · rintro none row ⟨⟨member, inside⟩, own, complete⟩ same
    exact none row member ⟨own, same ▸ named, complete⟩ same inside

theorem readGeneration_ok {ledgerKey : String} {guard : Guard} {generation : Nat}
    (read : guard.readGeneration ledgerKey = .ok generation) :
    guard.generationOf ledgerKey = some generation := by
  unfold Guard.readGeneration at read
  split at read
  next => cases read
  next row found =>
    cases read
    rw [Guard.generationOf, found]
    rfl

theorem snapshot_ok {windowSeconds : Int} {view fence : Guard} {monitor : Monitor}
    {result : Snapshot}
    (taken : snapshot store receipts sessionId windowSeconds now view monitor fence = .ok result) :
    let rows := monitor.requests.rows
    let cutoff := windowStart windowSeconds now
    let agent := (sessionAgent sessionId (since cutoff rows)).getD ""
    ∃ pending, validateRecordedRows cutoff rows = .ok () ∧
      active store agent now (committedSince store.ledgerKey cutoff rows) view = .ok pending ∧
      fence.generationOf store.ledgerKey = view.generationOf store.ledgerKey ∧
      result.recordedUsage = shown agent (queryRecordedUsage cutoff agent rows) ∧
      result.pendingProjectedUsage = shown agent pending := by
  iterate 4 obtain ⟨_, _, taken⟩ := except_bind_ok.mp taken
  obtain ⟨generation, first, taken⟩ := except_bind_ok.mp taken
  obtain ⟨_, _, taken⟩ := except_bind_ok.mp taken
  obtain ⟨_, _, taken⟩ := except_bind_ok.mp taken
  obtain ⟨_, _, taken⟩ := except_bind_ok.mp taken
  obtain ⟨_, valid, taken⟩ := except_bind_ok.mp taken
  obtain ⟨pending, holds, taken⟩ := except_bind_ok.mp taken
  obtain ⟨latest, last, taken⟩ := except_bind_ok.mp taken
  obtain ⟨_, same, taken⟩ := except_bind_ok.mp taken
  cases taken
  refine ⟨pending, valid, holds, ?_, rfl, rfl⟩
  rw [readGeneration_ok first, readGeneration_ok last, ensure_ok.mp same]

theorem shown_some {agent : String} {usage : Usage} {value : ℚ}
    (known : shown agent usage dimension = some value) :
    value = usage dimension := by
  unfold shown at known
  split at known
  · cases known
  · exact (Option.some.inj known).symm

theorem sessionAgent_lower (supplied : World.Supplied store world) :
    let agent := (sessionAgent sessionId (since cutoff world.monitor.requests.rows)).getD ""
    Text.lower agent = agent := by
  dsimp only
  unfold sessionAgent
  split
  next agent only =>
    have member : agent ∈ sessionAgents sessionId (since cutoff world.monitor.requests.rows) := by
      rw [only]; simp
    obtain ⟨row, kept, rfl⟩ := List.mem_map.mp (List.mem_dedup.mp member)
    have found := (List.mem_filter.mp (List.mem_filter.mp kept).1).1
    obtain ⟨accounting, _, own⟩ := supplied.rows row found
    rw [Option.getD_some, own.agentId, sqlLower_of_lower accounting.attribution.lowered]
    exact accounting.attribution.lowered
  next => decide

namespace World

theorem Step.guard_run {after : World} {action : Action} (step : Step store receipts world action after) :
    ∃ operations, after.guard = world.guard.run operations := by
  cases step with
  | @begin request attribution ownerInstanceId coverageId windowSeconds guard bound free new fresh begun =>
    exact ⟨[.beginRequest store attribution.sessionId ownerInstanceId coverageId windowSeconds world.clock],
      (congrArg Prod.snd begun).symm⟩
  | @decide reading pruning monitor accounting outcome guard locked looked held later before reserved =>
    exact ⟨[.reserve store receipts reading.call reading.reservationId reading.now pruning monitor],
      (congrArg Prod.snd reserved).symm⟩
  | @send request workload accounting guard free held going unlogged tokens marked =>
    exact ⟨[.attemptedSend store accounting.coverageId accounting.ref workload],
      (congrArg Prod.snd marked).symm⟩
  | @sendUnrecorded request workload accounting guard free held going tokens unsent reserved marked =>
    exact ⟨[.attemptedSend store accounting.coverageId accounting.ref workload],
      (congrArg Prod.snd marked).symm⟩
  | @recordWorkload request workload accounting guard free held stored =>
    exact ⟨[.recordWorkload store accounting.coverageId workload], (congrArg Prod.snd stored).symm⟩
  | @recordTokens request observation accounting guard free held stored =>
    exact ⟨[.recordTokens store accounting.coverageId observation], (congrArg Prod.snd stored).symm⟩
  | @settle ref actual seen => exact ⟨[.settleAfterCommit store ref actual world.clock seen], rfl⟩
  | @settleTokens ref => exact ⟨[.settleTokens store ref world.clock world.monitor], rfl⟩
  | @release request accounting ref => exact ⟨[.releaseUnsent store ref world.clock], rfl⟩
  | @finish request accounting guard free held closing unfinished ended =>
    exact ⟨[.finishRequest store accounting.coverageId world.clock], (congrArg Prod.snd ended).symm⟩
  | _ => exact ⟨[], rfl⟩

theorem Reaches.guard_run {rule : World → Action → Prop} {before after : World}
    (reached : Reaches store receipts rule before after) :
    ∃ operations, after.guard = before.guard.run operations := by
  induction reached with
  | refl => exact ⟨[], rfl⟩
  | tail _ next ih =>
    obtain ⟨_, _, step⟩ := next
    obtain ⟨earlier, ran⟩ := ih
    obtain ⟨more, moved⟩ := step.guard_run
    refine ⟨earlier ++ more, ?_⟩
    rw [moved, ran, Guard.run, Guard.run, Guard.run, List.foldl_append]

/-- A ledger whose generation is the same at both ends had the same rows at every
point in between. -/
theorem Reaches.fenced {rule : World → Action → Prop} {earlier later : World} {ledgerKey : String}
    (before : Reaches store receipts rule earlier world) (after : Reaches store receipts rule world later)
    (same : later.guard.generationOf ledgerKey = earlier.guard.generationOf ledgerKey) :
    world.guard.ledgerRows ledgerKey = earlier.guard.ledgerRows ledgerKey := by
  obtain ⟨first, reads⟩ := before.guard_run
  obtain ⟨second, fences⟩ := after.guard_run
  obtain ⟨rising, kept⟩ := earlier.guard.run_fenced first ledgerKey
  obtain ⟨risen, _⟩ := world.guard.run_fenced second ledgerKey
  rw [← reads] at rising kept
  rw [← fences, (Guard.rank_eq_iff ..).mpr same] at risen
  exact kept (Nat.le_antisymm rising risen)

end World

theorem standing_eq_filter (ledgerKey : String) (guard : Guard) : guard.standing ledgerKey =
    (guard.ledgerHolds ledgerKey).filter fun hold => hold.status = .active ∨ hold.status = .expired := by
  rw [Guard.standing, Guard.ledgerHolds, Guard.ledgerRows, List.filter_filter]
  refine List.filter_congr fun hold _ => ?_
  by_cases own : hold.ledgerKey = ledgerKey <;> simp [Reservation.Unresolved, own]

theorem snapshot_counted {windowSeconds : Int} {view fence : Guard} {result : Snapshot}
    {used held : ℚ} (priced : store.accountingBasis = .pricedUsage)
    (books : World.Books store world) (supplied : World.Supplied store world)
    (fenced : fence.generationOf store.ledgerKey = view.generationOf store.ledgerKey →
      world.guard.ledgerRows store.ledgerKey = view.ledgerRows store.ledgerKey)
    (taken : snapshot store receipts sessionId windowSeconds now view world.monitor fence = .ok result)
    (recorded : result.recordedUsage dimension = some used)
    (pending : result.pendingProjectedUsage dimension = some held) :
    let rows := world.monitor.requests.rows
    let cutoff := windowStart windowSeconds now
    let agent := (sessionAgent sessionId (since cutoff rows)).getD ""
    CountedOnce store.ledgerKey agent dimension cutoff rows (world.guard.ledgerHolds store.ledgerKey)
      (committedSince store.ledgerKey cutoff rows)
      (fun hold => if hold.Unresolved store.ledgerKey then
        hold.charge agent dimension (hold.reserved.amount dimension.measure) else 0) used held := by
  intro rows cutoff agent
  obtain ⟨summed, valid, holds, generation, usage, totals⟩ := snapshot_ok taken
  rw [usage] at recorded
  rw [totals] at pending
  have same : view.ledgerHolds store.ledgerKey = world.guard.ledgerHolds store.ledgerKey :=
    (congrArg Prod.fst (fenced generation)).symm
  refine ⟨?_, ?_, fun hold member => ?_⟩
  · rw [shown_some recorded]
    exact recordedUsage_split (sessionAgent_lower supplied) rows world.guard
  · rw [shown_some pending, (active_ok holds).2, priced, standing_eq_filter, same, ← standing_eq_filter]
    exact held_split
  · have named : hold.reservationId ≠ "" := books.named hold (mem_ledgerHolds.mp member).1
    refine counted_of_books books (validateRecordedRows_ok valid)
      (fun row found completes inside none => ?_) (fun none => ?_)
      (fun row found completes outside => ?_) member
    · exact (committedSince_eq_none named).mp none row found completes.1 completes.2 inside
    · exact (committedSince_eq_none named).mpr fun row found complete own _ => none row found ⟨complete, own⟩
    · have unknown : committedSince store.ledgerKey cutoff rows hold.reservationId = none := by
        refine (committedSince_eq_none named).mpr fun other present complete own inside => outside ?_
        have keyed : other.guardKey = some (store.ledgerKey, hold.reservationId) :=
          Row.Completes.keyed ⟨complete, own⟩
        exact world.monitor.requests.eq_of_key present found keyed completes.keyed ▸ inside
      rw [pendingShare, activeShare, if_pos unknown, share_priced]

/-- In every reachable state, the totals computed inside an admission and those of
a snapshot count each reservation of the ledger once: its actual usage while its
complete row is in the window, its projection as long as it has no complete row
and is not released. One whose row has left the window is counted by neither
total of an admission; a snapshot keeps its projection until it is settled. -/
theorem exactly_once {clock : Time} {domain : Option Domain} (priced : store.accountingBasis = .pricedUsage) :
    (∀ world, World.Reaches store receipts (fun _ _ => True) (World.fresh clock domain) world →
      ∀ (call : Call) (now pruning : Time) (used held : Usage),
        reserveTotals store receipts call now pruning world.monitor world.guard = .ok (used, held) →
        ∀ dimension, CountedOnce store.ledgerKey call.agent dimension (windowStart call.caps.windowSeconds now)
          world.monitor.requests.rows (world.guard.ledgerHolds store.ledgerKey)
          (committedUsage store.ledgerKey world.monitor.requests.rows) (fun _ => 0) (used dimension) (held dimension)) ∧
    ∀ earlier world later, World.Reaches store receipts (fun _ _ => True) (World.fresh clock domain) earlier →
      World.Reaches store receipts (fun _ _ => True) earlier world →
      World.Reaches store receipts (fun _ _ => True) world later →
      ∀ (sessionId : String) (windowSeconds : Int) (now : Time) (result : Snapshot),
        snapshot store receipts sessionId windowSeconds now earlier.guard world.monitor later.guard = .ok result →
        ∀ dimension used held, result.recordedUsage dimension = some used →
          result.pendingProjectedUsage dimension = some held →
          let rows := world.monitor.requests.rows
          let cutoff := windowStart windowSeconds now
          let agent := (sessionAgent sessionId (since cutoff rows)).getD ""
          CountedOnce store.ledgerKey agent dimension cutoff rows (world.guard.ledgerHolds store.ledgerKey)
            (committedSince store.ledgerKey cutoff rows)
            (fun hold => if hold.Unresolved store.ledgerKey then
              hold.charge agent dimension (hold.reserved.amount dimension.measure) else 0) used held := by
  constructor
  · intro world reached call now pruning used held computed dimension
    exact reserve_counted priced (.reached priced reached) computed dimension
  · intro earlier world later first before after sessionId windowSeconds now result taken dimension used held recorded pending
    have reached := Relation.ReflTransGen.trans first before
    exact snapshot_counted priced (.reached priced reached) (.reached reached)
      (before.fenced after) taken recorded pending

end readers

section runs

def unpricedCall : Call :=
  { sampleCall ⟨1, 3, 2, 1, one_nonneg⟩ with caps := ⟨true, 3600, 0, 0, 0, 0, 100, 0⟩ }

/-- Two requests hold six and four dollars; the first commits five, and its
settlement is still to come. -/
def unsettledRun : List Action :=
  sampleAdmission 0 ⟨6, 3, 2, 1, six_nonneg⟩ "tpr_0a" "tpc_0a" ++ sampleAdmission 1 ⟨4, 3, 2, 1,
    four_nonneg⟩ "tpr_0b" "tpc_0b" ++
    sampleUsage 0 (sampleRow "tpr_0a" 5 true)

theorem exactly_once_unsettled : ∃ world used held,
    World.Reaches sampleStore noReceipts (fun _ _ => True) sampleStart world ∧
      reserveTotals sampleStore noReceipts unpricedCall world.clock world.clock world.monitor world.guard =
        .ok (used, held) ∧
      used ⟨.fleet, .costUsd⟩ = 5 ∧ held ⟨.fleet, .costUsd⟩ = 4 ∧
      CountedOnce sampleStore.ledgerKey "agent-a" ⟨.fleet, .costUsd⟩ (windowStart 3600 world.clock)
        world.monitor.requests.rows (world.guard.ledgerHolds sampleStore.ledgerKey)
        (committedUsage sampleStore.ledgerKey world.monitor.requests.rows) (fun _ => 0) 5 4 := by
  obtain ⟨world, reached, computed⟩ : ∃ world,
      World.Reaches sampleStore noReceipts (fun _ _ => True) sampleStart world ∧
        (reserveTotals sampleStore noReceipts unpricedCall world.clock world.clock world.monitor
          world.guard).toOption.any (fun totals => totals.1 ⟨.fleet, .costUsd⟩ = 5 ∧ totals.2 ⟨.fleet, .costUsd⟩ = 4) = true :=
    World.play_any unsettledRun (by decide +kernel)
  obtain ⟨⟨used, held⟩, totals, values⟩ := (Option.any_eq_true ..).mp computed
  obtain ⟨five, four⟩ : used ⟨.fleet, .costUsd⟩ = 5 ∧ held ⟨.fleet, .costUsd⟩ = 4 := of_decide_eq_true values
  have agent : unpricedCall.agent = "agent-a" := by decide
  have ran := toOption_eq_some.mp totals
  refine ⟨world, used, held, reached, ran, five, four, ?_⟩
  have counted := (exactly_once rfl).1 world reached unpricedCall _ _ used held ran ⟨.fleet, .costUsd⟩
  rwa [five, four, agent] at counted

def settledMonitor : Monitor := ⟨sampleStore.freshMonitor.domain, ⟨[sampleRow "tpr_0a" 5 true], by decide⟩⟩

/-- The first request alone, settled, two hours later. -/
def agedRun : List Action :=
  sampleAdmission 0 ⟨6, 3, 2, 1, six_nonneg⟩ "tpr_0a" "tpc_0a" ++ sampleUsage 0 (sampleRow "tpr_0a" 5 true) ++
    [Action.settle ⟨sampleStore.path, sampleStore.ledgerKey, "tpr_0a", .pricedUsage⟩ ⟨5, 3, 2, 1,
      five_nonneg⟩ settledMonitor,
      .tick (seconds 1750007200)]

/-- A reservation that has no row in the window and is not released: it adds
nothing to either total. -/
theorem aged_row_counted_nowhere : ∃ world used held,
    World.Reaches sampleStore noReceipts (fun _ _ => True) sampleStart world ∧
      reserveTotals sampleStore noReceipts unpricedCall world.clock world.clock world.monitor world.guard =
        .ok (used, held) ∧
      (∃ hold ∈ world.guard.ledgerHolds sampleStore.ledgerKey, hold.status = .settled ∧
        hold.reserved.costUsd = 6) ∧
      (∀ row ∈ world.monitor.requests.rows, ¬ row.Since (windowStart 3600 world.clock)) ∧
      used ⟨.fleet, .costUsd⟩ + held ⟨.fleet, .costUsd⟩ = 0 := by
  obtain ⟨world, reached, computed, settled, outside⟩ : ∃ world,
      World.Reaches sampleStore noReceipts (fun _ _ => True) sampleStart world ∧
        (reserveTotals sampleStore noReceipts unpricedCall world.clock world.clock world.monitor
          world.guard).toOption.any (fun totals => totals.1 ⟨.fleet, .costUsd⟩ + totals.2 ⟨.fleet, .costUsd⟩ = 0) = true ∧
        (∃ hold ∈ world.guard.ledgerHolds sampleStore.ledgerKey, hold.status = .settled ∧
          hold.reserved.costUsd = 6) ∧
        ∀ row ∈ world.monitor.requests.rows, ¬ row.Since (windowStart 3600 world.clock) :=
    World.play_any agedRun (by decide +kernel)
  obtain ⟨⟨used, held⟩, totals, nothing⟩ := (Option.any_eq_true ..).mp computed
  exact ⟨world, used, held, reached, toOption_eq_some.mp totals, settled, outside, of_decide_eq_true nothing⟩

end runs
end TokenPak.Reservations
