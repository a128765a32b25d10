import TokenPak.Proofs.StandingHolds
import TokenPak.Reservations.Requests

/-! What the lifecycle of requests guarantees about the two databases of a priced
ledger. A request whose usage is not committed still has its hold, unless it
closed without a send; a settled hold has its complete row; a row and a hold with
one identifier belong to one request. -/

namespace TokenPak.Reservations
open Library Transaction
open SpendGuard (Time seconds)

def Accounting.Relies (accounting : Accounting) : Prop :=
  accounting.usage ≠ .committed ∧ (0 < accounting.attempts ∨ accounting.closing = false)

namespace World

/-- The identifier occurs in a database or in a request. -/
inductive Uses (world : World) (id : String) : Prop
  | hold (hold : Reservation) (member : hold ∈ world.guard.reservations.rows) (same : hold.reservationId = id)
  | row (row : Row) (member : row ∈ world.monitor.requests.rows) (named : id ≠ "") (same : row.guardReservationId = id)
  | ref (request : Nat) (accounting : Accounting) (ref : ReservationRef) (held : world.requests request = some accounting)
      (reserved : accounting.ref = some ref) (same : ref.reservationId = id)

/-- A row of a hold, in the monitor or on its way there, carries its attribution. -/
def Matches (hold : Reservation) (row : Row) : Prop :=
  row.sessionId = hold.sessionId ∧ row.agentId = hold.agentId ∧ sqlLower row.agentId = hold.agentId

/-- The usage row on its way is the request's own. -/
structure Queued (accounting : Accounting) (row : Row) : Prop where
  sent : 0 < accounting.attempts
  sessionId : row.sessionId = accounting.attribution.sessionId
  agentId : row.agentId = accounting.attribution.agentId
  reservationId : row.guardReservationId = (accounting.ref.map ReservationRef.reservationId).getD ""
  ledgerKey : row.guardLedgerKey = (accounting.ref.map ReservationRef.ledgerKey).getD ""

structure Books (store : Store) (world : World) : Prop where
  distinct : ∀ {first second a b ref other}, world.requests first = some a → world.requests second = some b →
    a.ref = some ref → b.ref = some other → ref.reservationId = other.reservationId → first = second
  owned : ∀ {request accounting ref}, world.requests request = some accounting → accounting.ref = some ref →
    ref.ledgerKey = store.ledgerKey ∧ ref.reservationId ≠ ""
  uncommitted : ∀ {request accounting ref}, world.requests request = some accounting →
    accounting.ref = some ref →
    accounting.usage ≠ .committed → ∀ row ∈ world.monitor.requests.rows,
      row.guardKey ≠ some (store.ledgerKey, ref.reservationId)
  stands : ∀ {request accounting ref}, world.requests request = some accounting → accounting.ref = some ref →
    accounting.Relies → ∃ hold ∈ world.guard.standing store.ledgerKey,
      hold.reservationId = ref.reservationId ∧
      hold.sessionId = accounting.attribution.sessionId ∧ hold.agentId = accounting.attribution.agentId
  queued : ∀ {request accounting row}, world.requests request = some accounting →
    accounting.usage = .queued row →
    Queued accounting row
  settled : ∀ hold ∈ world.guard.reservations.rows, hold.ledgerKey = store.ledgerKey →
    hold.status = .settled →
    ∃ row ∈ world.monitor.requests.rows, row.CompleteFor store.ledgerKey ∧
      row.guardReservationId = hold.reservationId
  attributed : ∀ hold ∈ world.guard.reservations.rows, ∀ row ∈ world.monitor.requests.rows,
    row.guardKey = some (store.ledgerKey, hold.reservationId) → Matches hold row
  used : ∀ id, world.Uses id → id ∈ world.issued ∧ ∀ reading, world.lock = some reading →
    reading.reservationId ≠ id
  reading : ∀ reading, world.lock = some reading → reading.reservationId ≠ "" ∧
    reading.reservationId ∈ world.issued ∧ ∀ accounting, world.requests reading.request = some accounting →
      accounting.ref = none ∧ (accounting.usage = .unlogged ∧ accounting.attempts = 0) ∧
        reading.call.sessionId = accounting.attribution.sessionId ∧
          reading.call.agentId = accounting.attribution.agentId
  named : ∀ hold ∈ world.guard.reservations.rows, hold.reservationId ≠ ""

variable {store : Store} {receipts : Receipts} {world : World}

theorem Books.fresh (clock : Time) (domain : Option Domain) : Books store (World.fresh clock domain) where
  distinct held := nomatch held
  owned held := nomatch held
  uncommitted held := nomatch held
  stands held := nomatch held
  queued held := nomatch held
  settled _ member := nomatch member
  attributed _ member := nomatch member
  used id used := by
    cases used with
    | hold hold member => cases member
    | row row member => cases member
    | ref request accounting ref held => cases held
  reading _ locked := nomatch locked
  named _ member := nomatch member

theorem setRequest_self (request : Nat) (accounting : Accounting) :
    (world.setRequest request accounting).requests request = some accounting := Function.update_self ..

theorem setRequest_of_ne {request other : Nat} (different : other ≠ request) (accounting : Accounting) :
    (world.setRequest request accounting).requests other = world.requests other :=
      Function.update_of_ne different ..

variable {accounting : Accounting}

theorem Books.request {request : Nat} {next : Accounting} (books : Books store world)
    (held : world.requests request = some accounting) (ref : next.ref = accounting.ref)
    (attribution : next.attribution = accounting.attribution)
    (relies : next.Relies → accounting.Relies)
    (uncommitted : next.usage ≠ .committed → accounting.usage ≠ .committed)
    (queued : ∀ row, next.usage = .queued row → Queued next row)
    (unread : ∀ reading, world.lock = some reading → reading.request = request →
      next.usage = .unlogged ∧ next.attempts = 0) :
    Books store (world.setRequest request next) := by
  -- Every request of the new world has a counterpart with the same reservation.
  have origin {other : Nat} {current : Accounting}
    (found : (world.setRequest request next).requests other = some current) :
      ∃ earlier, world.requests other = some earlier ∧ current.ref = earlier.ref ∧
        current.attribution = earlier.attribution ∧ (current.Relies → earlier.Relies) ∧
        (current.usage ≠ .committed → earlier.usage ≠ .committed) ∧
        (∀ row, current.usage = .queued row → Queued current row) ∧
        (∀ reading, world.lock = some reading → reading.request = other →
          current.usage = .unlogged ∧ current.attempts = 0) := by
    by_cases same : other = request
    · subst same
      rw [setRequest_self] at found
      cases found
      exact ⟨accounting, held, ref, attribution, relies, uncommitted, queued, unread⟩
    · rw [setRequest_of_ne same] at found
      refine ⟨current, found, rfl, rfl, id, id, fun row queued => books.queued found queued,
        fun reading locked mine => ?_⟩
      exact ((books.reading reading locked).2.2 current (mine ▸ found)).2.1
  refine ⟨?_, ?_, ?_, ?_, ?_, books.settled, books.attributed, ?_, ?_, books.named⟩
  · intro first second a b ref other heldFirst heldSecond reserved also same
    obtain ⟨x, foundFirst, refFirst, _⟩ := origin heldFirst
    obtain ⟨y, foundSecond, refSecond, _⟩ := origin heldSecond
    exact books.distinct foundFirst foundSecond (refFirst ▸ reserved) (refSecond ▸ also) same
  · intro other current ref found reserved
    obtain ⟨earlier, present, same, _⟩ := origin found
    exact books.owned present (same ▸ reserved)
  · intro other current ref found reserved open_
    obtain ⟨earlier, present, same, _, _, still, _⟩ := origin found
    exact books.uncommitted present (same ▸ reserved) (still open_)
  · intro other current ref found reserved relying
    obtain ⟨earlier, present, same, attribution, relies, _⟩ := origin found
    obtain ⟨hold, member, matched⟩ := books.stands present (same ▸ reserved) (relies relying)
    exact ⟨hold, member, attribution ▸ matched⟩
  · intro other current row found waiting
    obtain ⟨_, _, _, _, _, _, queued, _⟩ := origin found
    exact queued row waiting
  · intro id used
    refine books.used id ?_
    cases used with
    | hold hold member same => exact .hold hold member same
    | row row member named same => exact .row row member named same
    | ref other current ref found reserved same =>
      obtain ⟨earlier, present, kept, _⟩ := origin found
      exact .ref other earlier ref present (kept ▸ reserved) same
  · intro reading locked
    obtain ⟨named, drawn, call⟩ := books.reading reading locked
    refine ⟨named, drawn, fun current found => ?_⟩
    obtain ⟨earlier, present, kept, attribution, _, _, _, unread⟩ := origin found
    obtain ⟨free, _, session, agent⟩ := call earlier present
    exact ⟨kept ▸ free, unread reading locked rfl, attribution ▸ session, attribution ▸ agent⟩

theorem Books.guard {guard : Guard} {closes : String → Status → Prop} (books : Books store world)
    (kept : Keeps store.ledgerKey closes world.guard guard)
    (justified : ∀ id status, closes id status →
      (∃ row ∈ world.monitor.requests.rows, row.CompleteFor store.ledgerKey ∧ row.guardReservationId = id) ∨
      (status = .released ∧ ∃ request accounting ref, world.requests request = some accounting ∧
        accounting.ref = some ref ∧ ref.reservationId = id ∧ accounting.attempts = 0 ∧ accounting.closing = true)) :
    Books store { world with guard := guard } := by
  refine ⟨books.distinct, books.owned, books.uncommitted, ?_, books.queued, ?_, ?_, ?_, books.reading, ?_⟩
  · intro request accounting ref held reserved relying
    obtain ⟨hold, member, same, matched⟩ := books.stands held reserved relying
    refine ⟨hold, kept.forth hold member fun status closed => ?_, same, matched⟩
    obtain ⟨row, present, complete, own⟩
        | ⟨_, other, owner, held', found, reserved', same', unsent, closing⟩ :=
      justified _ _ closed
    · refine books.uncommitted held reserved relying.1 row present ?_
      exact Row.guardKey_eq_some.mpr ⟨(books.owned held reserved).2, complete.1, own.trans same⟩
    · obtain rfl := books.distinct held found reserved reserved' (same ▸ same'.symm)
      obtain rfl := Option.some.inj (held.symm.trans found)
      obtain sent | going := relying.2
      · omega
      · rw [closing] at going
        cases going
  · intro hold member own done
    obtain ⟨earlier, found, same, kept | closed⟩ := kept.back hold member
    · rw [same] at own ⊢
      exact books.settled earlier found own (kept ▸ done)
    · obtain ⟨row, present, complete, named⟩ | ⟨released, _⟩ := justified _ _ closed
      · refine ⟨row, present, complete, ?_⟩
        rw [same]
        exact named
      · rw [done] at released
        cases released
  · intro hold member row present keyed
    obtain ⟨earlier, found, same, _⟩ := kept.back hold member
    rw [same] at keyed ⊢
    exact books.attributed earlier found row present keyed
  · intro id used
    refine books.used id ?_
    cases used with
    | hold hold member same =>
      obtain ⟨earlier, found, origin, _⟩ := kept.back hold member
      rw [origin] at same
      exact .hold earlier found same
    | row row member named same => exact .row row member named same
    | ref request accounting ref held reserved same => exact .ref request accounting ref held reserved same
  · intro hold member
    obtain ⟨earlier, found, same, _⟩ := kept.back hold member
    rw [same]
    exact books.named earlier found

theorem Books.quiet {guard : Guard} (books : Books store world)
    (kept : Keeps store.ledgerKey (fun _ _ => False) world.guard guard) :
    Books store { world with guard := guard } :=
  books.guard kept fun _ _ closed => closed.elim

theorem Books.ambient {other : World} (books : Books store world) (guard : other.guard = world.guard)
    (rows : other.monitor.requests.rows = world.monitor.requests.rows)
    (requests : other.requests = world.requests)
    (issued : ∀ id ∈ world.issued, id ∈ other.issued)
    (lock : ∀ reading, other.lock = some reading → ∃ earlier, world.lock = some earlier ∧
      reading.reservationId = earlier.reservationId ∧ reading.request = earlier.request ∧ reading.call = earlier.call) :
    Books store other := by
  refine ⟨?_, ?_, ?_, ?_, ?_, ?_, ?_, ?_, ?_, guard ▸ books.named⟩
  · rw [requests]; exact books.distinct
  · rw [requests]; exact books.owned
  · rw [requests, rows]; exact books.uncommitted
  · rw [requests, guard]; exact books.stands
  · rw [requests]; exact books.queued
  · rw [guard, rows]; exact books.settled
  · rw [guard, rows]; exact books.attributed
  · intro id used
    have before : world.Uses id := by
      cases used with
      | hold hold member same => exact .hold hold (guard ▸ member) same
      | row row member named same => exact .row row (rows ▸ member) named same
      | ref request accounting ref held reserved same =>
          exact .ref request accounting ref (requests ▸ held) reserved same
    obtain ⟨drawn, apart⟩ := books.used id before
    refine ⟨issued id drawn, fun reading locked => ?_⟩
    obtain ⟨earlier, found, same, _⟩ := lock reading locked
    rw [same]
    exact apart earlier found
  · intro reading locked
    obtain ⟨earlier, found, same, request, call⟩ := lock reading locked
    obtain ⟨named, drawn, accounted⟩ := books.reading earlier found
    rw [same, request, call, requests]
    exact ⟨named, issued _ drawn, accounted⟩

theorem Books.opened {request : Nat} {next : Accounting} (books : Books store world)
    (free : world.lock = none)
    (new : world.requests request = none) (unreserved : next.ref = none) (unlogged : next.usage = .unlogged) :
    Books store (world.setRequest request next) := by
  have origin {other : Nat} {current : Accounting} {ref : ReservationRef}
      (found : (world.setRequest request next).requests other = some current)
        (reserved : current.ref = some ref) :
      world.requests other = some current := by
    by_cases same : other = request
    · subst same
      rw [setRequest_self] at found
      cases found
      rw [unreserved] at reserved
      cases reserved
    · rwa [setRequest_of_ne same] at found
  refine ⟨?_, ?_, ?_, ?_, ?_, books.settled, books.attributed, ?_, ?_, books.named⟩
  · intro first second a b ref other heldFirst heldSecond reserved also
    exact books.distinct (origin heldFirst reserved) (origin heldSecond also) reserved also
  · intro other current ref found reserved
    exact books.owned (origin found reserved) reserved
  · intro other current ref found reserved
    exact books.uncommitted (origin found reserved) reserved
  · intro other current ref found reserved
    exact books.stands (origin found reserved) reserved
  · intro other current row found waiting
    by_cases same : other = request
    · subst same
      rw [setRequest_self] at found
      cases found
      rw [unlogged] at waiting
      cases waiting
    · rw [setRequest_of_ne same] at found
      exact books.queued found waiting
  · intro id used
    refine books.used id ?_
    cases used with
    | hold hold member same => exact .hold hold member same
    | row row member named same => exact .row row member named same
    | ref other current ref found reserved same =>
        exact .ref other current ref (origin found reserved) reserved same
  · intro reading locked
    exact nomatch free.symm.trans locked

theorem Books.admitted {reading : Reading} {guard : Guard} {hold : Reservation}
    {ref : ReservationRef} (books : Books store world) (locked : world.lock = some reading)
    (held : world.requests reading.request = some accounting)
    (rows : guard.reservations.rows = world.guard.reservations.rows ++ [hold])
    (key : ref.ledgerKey = store.ledgerKey) (id : ref.reservationId = reading.reservationId)
    (same : hold.reservationId = reading.reservationId) (active : hold.status = .active)
    (ledgerKey : hold.ledgerKey = store.ledgerKey)
    (sessionId : hold.sessionId = accounting.attribution.sessionId)
    (agentId : hold.agentId = accounting.attribution.agentId) :
    Books store { world.setRequest reading.request { accounting with ref := some ref } with guard := guard, lock := none } := by
  obtain ⟨named, drawn, accounted⟩ := books.reading reading locked
  obtain ⟨_, ⟨unlogged, _⟩, _⟩ := accounted accounting held
  have unused : ¬ world.Uses reading.reservationId := fun used => (books.used _ used).2 reading locked rfl
  have unmatched : ∀ row ∈ world.monitor.requests.rows,
      row.guardKey ≠ some (store.ledgerKey, reading.reservationId) := by
    intro row member keyed
    exact unused (.row row member named (Row.guardKey_eq_some.mp keyed).2.2)
  have standing : guard.standing store.ledgerKey = world.guard.standing store.ledgerKey ++ [hold] := by
    rw [Guard.standing, rows, List.filter_append]
    simp [Guard.standing, Reservation.Unresolved, active, ledgerKey]
  -- The request that was read, or another one as it was.
  have origin {other : Nat} {current : Accounting}
      (found : (world.setRequest reading.request { accounting with ref := some ref }).requests other = some current) :
      (other = reading.request ∧ current = { accounting with ref := some ref }) ∨
        (other ≠ reading.request ∧ world.requests other = some current) := by
    by_cases here : other = reading.request
    · subst here
      rw [setRequest_self] at found
      exact .inl ⟨rfl, (Option.some.inj found).symm⟩
    · rw [setRequest_of_ne here] at found
      exact .inr ⟨here, found⟩
  have apart {other : Nat} {current : Accounting} {old : ReservationRef}
    (found : world.requests other = some current)
      (reserved : current.ref = some old) : old.reservationId ≠ reading.reservationId :=
    fun equal => unused (.ref other current old found reserved equal)
  have unlocked {reading : Reading} (none_ : (none : Option Reading) = some reading)
      {P : Prop} : P := by
    cases none_
  refine ⟨?_, ?_, ?_, ?_, ?_, ?_, ?_, ?_, fun _ locked => unlocked locked, ?_⟩
  · intro first second a b one two heldFirst heldSecond reserved also equal
    obtain ⟨rfl, rfl⟩ | ⟨_, foundFirst⟩ :=
      origin heldFirst <;> obtain ⟨rfl, rfl⟩ | ⟨_, foundSecond⟩ := origin heldSecond
    · rfl
    · cases reserved
      exact absurd (equal.symm.trans id) (apart foundSecond also)
    · cases also
      exact absurd (equal.trans id) (apart foundFirst reserved)
    · exact books.distinct foundFirst foundSecond reserved also equal
  · intro other current old found reserved
    obtain ⟨rfl, rfl⟩ | ⟨_, present⟩ := origin found
    · cases reserved
      exact ⟨key, id ▸ named⟩
    · exact books.owned present reserved
  · intro other current old found reserved open_
    obtain ⟨rfl, rfl⟩ | ⟨_, present⟩ := origin found
    · cases reserved
      rw [id]
      exact unmatched
    · exact books.uncommitted present reserved open_
  · intro other current old found reserved relying
    change ∃ current_ ∈ guard.standing store.ledgerKey, _
    rw [standing]
    obtain ⟨rfl, rfl⟩ | ⟨_, present⟩ := origin found
    · cases reserved
      exact ⟨hold, by simp, same.trans id.symm, sessionId, agentId⟩
    · obtain ⟨older, member, matched⟩ := books.stands present reserved relying
      exact ⟨older, List.mem_append_left _ member, matched⟩
  · intro other current row found waiting
    obtain ⟨rfl, rfl⟩ | ⟨_, present⟩ := origin found
    · rw [unlogged] at waiting
      cases waiting
    · exact books.queued present waiting
  · intro older member own done
    rw [rows] at member
    obtain member | new := List.mem_append.mp member
    · exact books.settled older member own done
    · obtain rfl := List.mem_singleton.mp new
      rw [active] at done
      cases done
  · intro older member row present keyed
    rw [rows] at member
    obtain member | new := List.mem_append.mp member
    · exact books.attributed older member row present keyed
    · obtain rfl := List.mem_singleton.mp new
      exact absurd (same ▸ keyed) (unmatched row present)
  · intro used_ used
    refine ⟨?_, fun _ locked => unlocked locked⟩
    cases used with
    | hold older member equal =>
      rw [rows] at member
      obtain member | new := List.mem_append.mp member
      · exact (books.used _ (.hold older member equal)).1
      · obtain rfl := List.mem_singleton.mp new
        exact equal ▸ same ▸ drawn
    | row row member named equal => exact (books.used _ (.row row member named equal)).1
    | ref other current old found reserved equal =>
      obtain ⟨rfl, rfl⟩ | ⟨_, present⟩ := origin found
      · cases reserved
        exact equal ▸ id ▸ drawn
      · exact (books.used _ (.ref other current old present reserved equal)).1
  · intro older member
    rw [rows] at member
    obtain member | new := List.mem_append.mp member
    · exact books.named older member
    · obtain rfl := List.mem_singleton.mp new
      exact same ▸ named

/-- A queued row that carries a reservation, and the hold it is about. -/
theorem Books.queued_hold {request : Nat} {row : Row} (books : Books store world)
    (held : world.requests request = some accounting) (queued : accounting.usage = .queued row)
    (named : row.guardReservationId ≠ "") :
    ∃ ref, accounting.ref = some ref ∧ row.guardReservationId = ref.reservationId ∧
      row.guardKey = some (store.ledgerKey, ref.reservationId) ∧ accounting.Relies ∧
      ∃ hold ∈ world.guard.standing store.ledgerKey, hold.reservationId = row.guardReservationId ∧
          Matches hold row := by
  have own := books.queued held queued
  cases reserved : accounting.ref with
  | none =>
    rw [own.reservationId, reserved] at named
    exact absurd rfl named
  | some ref =>
    have same : row.guardReservationId = ref.reservationId := by rw [own.reservationId, reserved]; rfl
    have key : row.guardLedgerKey = ref.ledgerKey := by rw [own.ledgerKey, reserved]; rfl
    have relying : accounting.Relies := ⟨by rw [queued]; exact nofun, .inl own.sent⟩
    obtain ⟨hold, member, id, session, agent⟩ := books.stands held reserved relying
    refine ⟨ref, rfl, same, ?_, relying, hold, member, id.trans same.symm, ?_⟩
    · exact Row.guardKey_eq_some.mpr ⟨same ▸ named, key.trans (books.owned held reserved).1, same⟩
    · have agentId : row.agentId = hold.agentId := own.agentId.trans agent.symm
      refine ⟨own.sessionId.trans session.symm, agentId, ?_⟩
      rw [agentId, agent]
      exact sqlLower_of_lower accounting.attribution.lowered

theorem Books.committed {request : Nat} {row : Row}
    {requests : Table Row (String × String) Row.guardKey} (books : Books store world)
    (held : world.requests request = some accounting) (queued : accounting.usage = .queued row)
    (inserted : world.monitor.requests.insert row = some requests) :
    Books store { world.setRequest request { accounting with usage := .committed } with
      monitor := { world.monitor with requests := requests } } := by
  obtain ⟨rows, _⟩ := Table.insert_eq_some inserted
  have moved : Books store (world.setRequest request { accounting with usage := .committed }) := by
    refine books.request held rfl rfl (fun relying => absurd rfl relying.1) (fun open_ => absurd rfl open_)
      (fun _ waiting => nomatch waiting) fun reading locked mine => ?_
    obtain ⟨_, _, accounted⟩ := books.reading reading locked
    obtain ⟨_, ⟨unlogged, _⟩, _⟩ := accounted accounting (mine ▸ held)
    rw [queued] at unlogged
    cases unlogged
  refine ⟨moved.distinct, moved.owned, ?_, moved.stands, moved.queued, ?_, ?_, ?_, moved.reading, moved.named⟩
  · intro other current ref found reserved open_ later member keyed
    change later ∈ requests.rows at member
    rw [rows] at member
    obtain member | new := List.mem_append.mp member
    · exact moved.uncommitted found reserved open_ later member keyed
    · obtain rfl := List.mem_singleton.mp new
      have named : later.guardReservationId ≠ "" :=
        (Row.guardKey_eq_some.mp keyed).2.2 ▸ (Row.guardKey_eq_some.mp keyed).1
      obtain ⟨own, mine, _, key, _⟩ := books.queued_hold held queued named
      have same : own.reservationId = ref.reservationId :=
        (Prod.mk.inj (Option.some.inj (key.symm.trans keyed))).2
      obtain rfl := moved.distinct (setRequest_self ..) found mine reserved same
      obtain rfl := Option.some.inj ((setRequest_self ..).symm.trans found)
      exact open_ rfl
  · intro hold member own done
    obtain ⟨found, present, matched⟩ := moved.settled hold member own done
    exact ⟨found, by change found ∈ requests.rows; rw [rows]; exact List.mem_append_left _ present, matched⟩
  · intro hold member later present keyed
    change later ∈ requests.rows at present
    rw [rows] at present
    obtain present | new := List.mem_append.mp present
    · exact moved.attributed hold member later present keyed
    · obtain rfl := List.mem_singleton.mp new
      have named : later.guardReservationId ≠ "" :=
        (Row.guardKey_eq_some.mp keyed).2.2 ▸ (Row.guardKey_eq_some.mp keyed).1
      obtain ⟨ref, _, same, key, _, own, standing, id, matched⟩ := books.queued_hold held queued named
      have equal : ref.reservationId = hold.reservationId :=
        (Prod.mk.inj (Option.some.inj (key.symm.trans keyed))).2
      obtain rfl : own = hold := world.guard.reservations.eq_of_key (mem_standing.mp standing).1 member rfl
        (congrArg some (equal.symm.trans (same.symm.trans id.symm)))
      exact matched
  · intro id used
    refine moved.used id ?_
    cases used with
    | hold hold member same => exact .hold hold member same
    | row later member named same =>
      change later ∈ requests.rows at member
      rw [rows] at member
      obtain member | new := List.mem_append.mp member
      · exact .row later member named same
      · obtain rfl := List.mem_singleton.mp new
        obtain ⟨ref, mine, own, _⟩ := books.queued_hold held queued (same ▸ named)
        exact .ref request _ ref (setRequest_self ..) mine (own.symm.trans same)
    | ref other current ref found reserved same => exact .ref other current ref found reserved same

/-- An admission either changes nothing or adds one hold to what pruning left. -/
theorem reserve_outcome {call : Call} {reservationId : String} {now pruning : Time}
    {monitor : Monitor} {guard after : Guard}
    {outcome : Except Failure Outcome}
    (reserved : reserve store receipts call reservationId now pruning monitor guard = (outcome, after)) :
    (admittedRef outcome = none ∧ after = guard) ∨
      ∃ trimmed, outcome = .ok (.admitted ⟨store.path, store.ledgerKey, reservationId,
        store.accountingBasis⟩) ∧
        Keeps store.ledgerKey (fun _ _ => False) guard trimmed ∧
        (call.force = false → call.caps.enabled = true →
          checkCaps store receipts call now monitor trimmed = .ok ()) ∧
        after.reservations.rows = trimmed.reservations.rows ++ [call.hold store reservationId now] := by
  have cases_ := reserve_cases store receipts call reservationId now pruning monitor guard
  rw [reserved] at cases_
  obtain ⟨rfl, ran⟩ | ⟨refused, rfl⟩ := cases_
  · obtain ⟨bound, trimmed, reservations, bind, maintain, checked, inserted, rfl⟩ := reserveStatements_ok ran
    refine .inr ⟨trimmed, rfl, (bindBasis_keeps bind).trans (maintainHistory_keeps maintain), checked, ?_⟩
    exact (Table.insert_eq_some inserted).1
  · left
    refine ⟨?_, rfl⟩
    cases outcome with
    | error failure => rfl
    | ok outcome =>
      cases outcome with
      | admitted ref => exact absurd rfl (refused ref)
      | blocked breach => rfl

theorem bindDomain_requests (store : Store) (monitor : Monitor) :
    (monitor.bindDomain store).2.requests = monitor.requests := by
  unfold Monitor.bindDomain
  dsimp only
  split
  · split <;> rfl
  · rfl

theorem Books.step {action : Action} {after : World} (books : Books store world)
    (priced : store.accountingBasis = .pricedUsage) (step : Step store receipts world action after) :
    Books store after := by
  have covered {guard : Guard} (same : guard.reservations = world.guard.reservations) :
      Books store { world with guard := guard } := books.quiet (.idle same)
  cases step with
  | tick =>
      exact books.ambient rfl rfl rfl (fun _ drawn => drawn) fun reading locked =>
        ⟨reading, locked, rfl, rfl, rfl⟩
  | bindDomain =>
    exact books.ambient rfl (congrArg Table.rows (bindDomain_requests ..)) rfl (fun _ drawn => drawn)
      fun reading locked => ⟨reading, locked, rfl, rfl, rfl⟩
  | @begin request attribution ownerInstanceId coverageId windowSeconds guard bound free new fresh begun =>
    have kept : Books store { world with guard := guard } := books.quiet (beginRequest_keeps begun)
    have opened : Books store ({ world with guard := guard }.setRequest request
      ⟨attribution, ownerInstanceId, coverageId, none, 0, .unlogged, false, false⟩) := kept.opened free new rfl rfl
    exact opened.ambient rfl rfl rfl (fun _ drawn => List.mem_cons_of_mem _ drawn)
      fun reading locked => ⟨reading, locked, rfl, rfl, rfl⟩
  | claim bound free held unreserved unsent unlogged going session agent owner named fresh =>
    refine ⟨books.distinct, books.owned, books.uncommitted, books.stands, books.queued,
      books.settled, books.attributed,
      fun id used => ?_, fun reading locked => ?_, books.named⟩
    · have drawn : id ∈ world.issued := by
        cases used with
        | hold hold member same => exact (books.used _ (.hold hold member same)).1
        | row row member named same => exact (books.used _ (.row row member named same)).1
        | ref request accounting ref held reserved same =>
          exact (books.used _ (.ref request accounting ref held reserved same)).1
      refine ⟨List.mem_cons_of_mem _ drawn, fun reading locked => ?_⟩
      cases locked
      rintro rfl
      exact fresh drawn
    · cases locked
      refine ⟨named, List.mem_cons_self, fun accounting found => ?_⟩
      obtain rfl := Option.some.inj (held.symm.trans found)
      exact ⟨unreserved, ⟨unlogged, unsent⟩, session, agent⟩
  | @look reading locked blind =>
    refine books.ambient rfl rfl rfl (fun _ drawn => drawn) fun current now => ?_
    cases now
    exact ⟨reading, locked, rfl, rfl, rfl⟩
  | @decide reading pruning monitor accounting outcome guard locked looked held _ _ reserved =>
    obtain ⟨_, _, accounted⟩ := books.reading reading locked
    obtain ⟨unreserved, unread, session, agent⟩ := accounted accounting held
    obtain ⟨refused, rfl⟩ | ⟨trimmed, rfl, kept, _, rows⟩ := reserve_outcome reserved
    · have same : { accounting with ref := admittedRef outcome } = accounting := by rw [refused, ← unreserved]
      rw [same]
      have moved : Books store (world.setRequest reading.request accounting) :=
        books.request held rfl rfl id id (fun _ waiting => books.queued held waiting) fun _ _ _ => unread
      exact moved.ambient rfl rfl rfl (fun _ drawn => drawn) fun reading locked => nomatch locked
    · have trimmed_ : Books store { world with guard := trimmed } := books.quiet kept
      refine trimmed_.admitted locked held rows rfl rfl rfl rfl rfl session ?_
      change Text.lower reading.call.agentId = _
      rw [agent, accounting.attribution.lowered]
  | abandon => exact books.ambient rfl rfl rfl (fun _ drawn => drawn) fun reading locked => nomatch locked
  | @send request workload accounting guard free held going unlogged tokens marked =>
    have same := attemptedSend_reservations store accounting.coverageId accounting.ref workload world.guard
    rw [marked] at same
    refine (covered same).request held rfl rfl (fun relying =>
      ⟨relying.1, .inr going⟩) id (fun row waiting => ?_)
      fun _ locked _ => nomatch free.symm.trans locked
    exact nomatch unlogged.symm.trans waiting
  | sendUnrecorded free held going tokens => exact nomatch priced.symm.trans tokens
  | recordWorkload free held stored =>
    exact covered ((congrArg (Guard.reservations ∘ Prod.snd) stored).symm.trans (updateCoverage_reservations ..))
  | recordTokens free held stored =>
    exact covered ((congrArg (Guard.reservations ∘ Prod.snd) stored).symm.trans (updateCoverage_reservations ..))
  | @log request row accounting held going sent unlogged own =>
    refine books.request held rfl rfl (fun _ => ⟨by rw [unlogged]; exact nofun, .inl sent⟩)
      (fun _ => by rw [unlogged]; exact nofun) (fun row waiting => ?_) fun reading locked mine => ?_
    · cases waiting
      exact ⟨sent, own.sessionId, own.agentId, own.reservationId, own.ledgerKey⟩
    · obtain ⟨_, _, accounted⟩ := books.reading reading locked
      obtain ⟨_, ⟨_, unsent⟩, _⟩ := accounted accounting (mine ▸ held)
      omega
  | commit held queued inserted => exact books.committed held queued inserted
  | settle free named earlier =>
    refine books.guard (settleAfterCommit_keeps ..) ?_
    rintro id status ⟨_, rfl, row, member, same, owned, complete⟩
    exact .inl ⟨row, earlier.subset member, ⟨owned, same ▸ named, complete⟩, same⟩
  | settleTokens free =>
    rw [settleTokens_priced priced]
    exact books
  | close held =>
    refine books.request held rfl rfl (fun relying =>
      ⟨relying.1, relying.2.imp_right nofun⟩) id (fun _ waiting => ?_)
      fun reading locked mine => ?_
    · obtain ⟨sent, session, agent, reservation, key⟩ := books.queued held waiting
      exact ⟨sent, session, agent, reservation, key⟩
    · obtain ⟨_, _, accounted⟩ := books.reading reading locked
      obtain ⟨_, unread, _⟩ := accounted _ (mine ▸ held)
      exact unread
  | release free held closing reserved unsent =>
    refine books.guard (releaseUnsent_keeps ..) ?_
    rintro id status ⟨released, rfl⟩
    exact .inr ⟨released, _, _, _, held, reserved, rfl, unsent, closing⟩
  | finish free held closing unfinished ended =>
    have same := (congrArg (Guard.reservations ∘ Prod.snd) ended).symm.trans (updateCoverage_reservations ..)
    refine (covered same).request held rfl rfl id id (fun _ waiting => ?_) fun _ locked _ =>
      nomatch free.symm.trans locked
    obtain ⟨sent, session, agent, reservation, key⟩ := books.queued held waiting
    exact ⟨sent, session, agent, reservation, key⟩

theorem Books.reached {rule : World → Action → Prop} {clock : Time} {domain : Option Domain}
    (priced : store.accountingBasis = .pricedUsage)
    (reached : Reaches store receipts rule (World.fresh clock domain) world) : Books store world := by
  induction reached with
  | refl => exact .fresh clock domain
  | tail _ next ih =>
    obtain ⟨_, _, step⟩ := next
    exact ih.step priced step

/-- Every usage row was handed in by a request. -/
structure Supplied (store : Store) (world : World) : Prop where
  rows : ∀ row ∈ world.monitor.requests.rows, ∃ accounting clock, RowOf store accounting clock row
  queued : ∀ {request accounting row}, world.requests request = some accounting →
    accounting.usage = .queued row →
    ∃ accounting clock, RowOf store accounting clock row

variable {after : World} {action : Action}

theorem Supplied.request {request : Nat} {next : Accounting} (supplied : Supplied store world)
    (rows : ∀ row ∈ after.monitor.requests.rows, ∃ accounting clock, RowOf store accounting clock row)
    (updated : after.requests = (world.setRequest request next).requests)
    (queued : ∀ row, next.usage = .queued row →
      ∃ accounting clock, RowOf store accounting clock row) : Supplied store after := by
  refine ⟨rows, @fun other accounting row found carries => ?_⟩
  rw [updated] at found
  by_cases same : other = request
  · subst same
    rw [setRequest_self] at found
    cases found
    exact queued row carries
  · rw [setRequest_of_ne same] at found
    exact supplied.queued found carries

theorem Supplied.step (supplied : Supplied store world) (step : Step store receipts world action after) :
    Supplied store after := by
  cases step with
  | bindDomain =>
    refine ⟨?_, supplied.queued⟩
    rw [bindDomain_requests]
    exact supplied.rows
  | begin => exact supplied.request supplied.rows rfl fun _ carries => nomatch carries
  | decide locked looked held =>
      exact supplied.request supplied.rows rfl fun _ carries => supplied.queued held carries
  | send free held => exact supplied.request supplied.rows rfl fun _ carries => supplied.queued held carries
  | log held going sent unlogged own =>
    refine supplied.request supplied.rows rfl fun row carries => ?_
    cases carries
    exact ⟨_, _, own⟩
  | @commit request row accounting requests held queued inserted =>
    obtain ⟨rows, _⟩ := Table.insert_eq_some inserted
    refine supplied.request (fun other member => ?_) rfl fun _ carries => nomatch carries
    change other ∈ requests.rows at member
    rw [rows] at member
    obtain member | new := List.mem_append.mp member
    · exact supplied.rows other member
    · obtain rfl := List.mem_singleton.mp new
      exact supplied.queued held queued
  | close held => exact supplied.request supplied.rows rfl fun _ carries => supplied.queued held carries
  | finish free held => exact supplied.request supplied.rows rfl fun _ carries => supplied.queued held carries
  | _ => exact ⟨supplied.rows, supplied.queued⟩

theorem Supplied.reached {rule : World → Action → Prop} {clock : Time} {domain : Option Domain}
    (reached : Reaches store receipts rule (World.fresh clock domain) world) : Supplied store world := by
  induction reached with
  | refl => exact ⟨fun _ member => absurd member List.not_mem_nil, fun held => nomatch held⟩
  | tail _ next ih =>
    obtain ⟨_, _, step⟩ := next
    exact ih.step step

end World
end TokenPak.Reservations
