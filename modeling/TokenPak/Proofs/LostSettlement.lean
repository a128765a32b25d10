import TokenPak.Proofs.RequestBooks
import TokenPak.Reservations.Execution

/-! A settlement that never comes leaves an expired hold whose usage is committed.
Admission recognises it by its row: for priced usage however old the row is, for
provider tokens only while the row is inside the caller's window. -/

namespace TokenPak.Reservations
open Library Transaction
open SpendGuard (Time seconds)

def unresolvedExpired : Failure := .unavailable "unresolved expired reservation"

def Reservation.Overdue (now : Time) (hold : Reservation) : Prop :=
  hold.expiresAt ≤ now ∨ hold.status = .expired

instance (now : Time) (hold : Reservation) : Decidable (hold.Overdue now) :=
  inferInstanceAs (Decidable (_ ∨ _))

/-- A committed row with complete usage of the reservation, in either basis. -/
def Row.SettlesFor (ledgerKey reservationId : String) (row : Row) : Prop :=
  row.guardKey = some (ledgerKey, reservationId) ∧ (row.guardUsageComplete = true ∨
    row.guardTokenUsageComplete = true)

instance (ledgerKey reservationId : String) (row : Row) :
    Decidable (row.SettlesFor ledgerKey reservationId) :=
  inferInstanceAs (Decidable (_ ∧ _))

section avoids
variable {store : Store} {receipts : Receipts} {monitor : Monitor} {guard : Guard}

theorem number_avoids (value : ℚ) (name : String) : Avoids unresolvedExpired (number value name) := by
  unfold number
  split
  · exact .ok _
  · exact .error fun same => (nomatch same)

theorem identity_avoids (value name : String) (empty : Bool) :
    Avoids unresolvedExpired (identity value name empty) := by
  unfold identity
  split
  · exact .error fun same => (nomatch same)
  · exact .ok _

theorem validate_avoids (call : Call) : Avoids unresolvedExpired (call.validate store) := by
  refine .bind (identity_avoids ..) fun _ _ => .bind (identity_avoids ..) fun _ _ =>
      .bind (identity_avoids ..) fun _ _ =>
    .bind (identity_avoids ..) fun _ _ => .bind (number_avoids ..) fun _ _ =>
        .bind (number_avoids ..) fun _ _ =>
    .bind (.ensure fun same => (nomatch same)) fun _ _ => .bind ?_ fun _ _ => .ensure (by decide)
  exact .forM dimensions fun dimension _ => number_avoids ..

theorem checkDomain_avoids : Avoids unresolvedExpired (monitor.checkDomain store) := by
  unfold Monitor.checkDomain
  split
  · exact .ok _
  · exact .error (by decide)

theorem checkBasis_avoids : Avoids unresolvedExpired (guard.checkBasis store) := by
  unfold Guard.checkBasis
  dsimp only
  split
  · exact .ok _
  · exact .error (by decide)

theorem bindBasis_spares : Spares unresolvedExpired (bindBasis store) := by
  refine .bind .get fun guard => ?_
  split
  · exact .read fun _ => checkBasis_avoids
  · exact .bind (.require (by decide)) fun _ => .bind (.modify _) fun _ => .read fun _ => checkBasis_avoids

theorem maintainHistory_spares (windowSeconds : Int) (now : Time) :
    Spares unresolvedExpired (maintainHistory store windowSeconds now) :=
  .bind .get fun _ => .bind (.modify _) fun _ => .bind .get fun _ => .bind (.require (by decide)) fun _ =>
    .bind (.modify _) fun _ => .bind .get fun _ => .bind (.require (by decide)) fun _ => .modify _

theorem insertReservation_spares (hold : Reservation) :
    Spares unresolvedExpired (insertReservation hold) := by
  refine .bind .get fun guard => ?_
  split
  · exact .throw fun same => (nomatch same)
  · exact .set _

theorem validateRecordedRows_avoids (cutoff : Int) (rows : List Row) :
    Avoids unresolvedExpired (validateRecordedRows cutoff rows) := by
  unfold validateRecordedRows
  split
  · exact .error (by decide)
  · split
    · exact .error (by decide)
    · exact .ok _

theorem validateRecordedPrices_avoids (cutoff : Int) (rows : List Row) :
    Avoids unresolvedExpired (validateRecordedPrices receipts cutoff rows) := by
  unfold validateRecordedPrices
  split
  · exact .error (by decide)
  · refine .forM _ fun entry _ => ?_
    unfold validateRecordedPrice
    dsimp only
    split
    · exact .error (by decide)
    · split
      · exact .ok _
      · exact .error (by decide)

theorem tokenReceipt_avoids (seen : List String) (row : Row) :
    Avoids unresolvedExpired (tokenReceipt store guard seen row) := by
  refine .bind (.ensure (by decide)) fun _ _ => ?_
  dsimp only
  split
  · refine .bind (.ensure (by decide)) fun _ _ => ?_
    split
    · exact .error (by decide)
    · exact .bind (.ensure (by decide)) fun _ _ => .bind (.ensure (by decide)) fun _ _ =>
        .bind (.ensure (by decide)) fun _ _ => .ok _
  · exact .error (by decide)

theorem tokenReceipts_avoids (seen : List String) (rows : List Row) :
    Avoids unresolvedExpired (tokenReceipts store guard seen rows) := by
  induction rows generalizing seen with
  | nil => exact .ok _
  | cons row rows ih => exact .bind (tokenReceipt_avoids seen row) fun _ _ => .bind (ih _) fun _ _ => .ok _

theorem recordedTokens_avoids (cutoff : Int) (agentId : String) :
    Avoids unresolvedExpired (recordedTokens store monitor guard cutoff agentId) := by
  refine .bind ?_ fun rows _ => ?_
  · exact .bind (.ensure (by decide)) fun _ _ => .bind checkDomain_avoids fun _ _ =>
        .bind checkBasis_avoids fun _ _ =>
      .bind (.ensure (by decide)) fun _ _ => tokenReceipts_avoids ..
  · unfold tokenTotals
    dsimp only
    split
    · exact .error (by decide)
    · exact .ok _

theorem recorded_avoids (agentId : String) (windowSeconds : Int) (now : Time) (requirePrices : Bool) :
    Avoids unresolvedExpired (recorded store receipts agentId windowSeconds now requirePrices monitor guard) := by
  refine .bind checkDomain_avoids fun _ _ => ?_
  split
  · exact .bind (.ensure (by decide)) fun _ _ => recordedTokens_avoids ..
  · refine .bind (validateRecordedRows_avoids ..) fun _ _ => .bind ?_ fun _ _ => .ok _
    split
    · exact validateRecordedPrices_avoids ..
    · exact .ok _

variable {now pruning : Time} {call : Call} {reservationId : String}

/-- The loop over standing holds raises it only at an overdue hold without usage. -/
theorem foldActive_avoids {agentId : String} {committed : Committed} {holds : List Reservation}
    (resolved : ∀ hold ∈ holds, hold.Overdue now → committed hold.reservationId ≠ none)
    (totals : Usage) :
    Avoids unresolvedExpired (holds.foldlM (addActive store agentId now committed) totals) := by
  induction holds generalizing totals with
  | nil => exact .ok _
  | cons hold holds ih =>
    rw [List.foldlM_cons]
    refine .bind ?_ fun after _ =>
      ih (fun other member => resolved other (List.mem_cons_of_mem _ member)) after
    unfold addActive
    split
    next =>
      split
      · exact .ok _
      · exact .error (by decide)
    next missing =>
      have current : ¬ (hold.expiresAt ≤ now ∨ hold.status = .expired) := fun overdue =>
        resolved hold List.mem_cons_self overdue missing
      rw [ensure, if_pos current]
      exact .bind (number_avoids ..) fun _ _ => .ok _

theorem active_avoids {agentId : String} {committed : Committed}
    (resolved : ∀ hold ∈ guard.standing store.ledgerKey, hold.Overdue now →
      committed hold.reservationId ≠ none) :
    Avoids unresolvedExpired (active store agentId now committed guard) :=
  .bind (.ensure (by decide)) fun _ _ => .bind checkBasis_avoids fun _ _ => foldActive_avoids resolved 0

theorem checkCaps_avoids (resolved : ∀ used committed,
      recorded store receipts call.agent call.caps.windowSeconds now call.requirePrices monitor
      guard = .ok (used, committed) → ∀ hold ∈ guard.standing store.ledgerKey, hold.Overdue now →
        committed hold.reservationId ≠ none) :
    Avoids (Abort.failure unresolvedExpired) (checkCaps store receipts call now monitor guard) := by
  refine .bind (.mapError (fun _ => Abort.failure.inj) (recorded_avoids ..)) fun (used,
    committed) computed => ?_
  have usage := resolved used committed (mapError_ok.mp computed)
  refine .bind (.mapError (fun _ => Abort.failure.inj) (active_avoids usage)) fun held _ => ?_
  split
  · exact .error fun same => nomatch same
  · exact .ok _

/-- What the other statements spare, the admission spares if the cap check does,
on the holds that pruning leaves standing. -/
theorem reserveStatements_avoids {abort : Abort}
    (bind : Spares abort (widen .failure (bindBasis store)))
    (maintain : Spares abort (widen .failure (maintainHistory store call.caps.windowSeconds pruning)))
    (insert : Spares abort (widen .failure (insertReservation (call.hold store reservationId now))))
    (checked : ∀ trimmed : Guard, trimmed.standing store.ledgerKey = guard.standing store.ledgerKey →
      Avoids abort (checkCaps store receipts call now monitor trimmed)) :
    Avoids abort ((reserveStatements store receipts call reservationId now pruning monitor).run guard) := by
  refine Spares.bind_run bind fun _ bound binds => Spares.bind_run maintain fun _ trimmed trims => ?_
  have kept : Keeps store.ledgerKey (fun _ _ => False) guard trimmed :=
    (bindBasis_keeps (widen_ok.mp binds)).trans (maintainHistory_keeps (widen_ok.mp trims))
  have finish := (Spares.bind insert fun _ => .modify (Guard.generationChanged store.ledgerKey)) trimmed
  split
  · have check : Avoids abort ((Transaction.read (checkCaps store receipts call now monitor)).run trimmed) :=
      Spares.read_run (checked trimmed (kept.undisturbed fun _ _ closed => closed))
    refine Avoids.bind check fun (_, state) ran => ?_
    obtain ⟨_, rfl⟩ := read_ok.mp ran
    exact finish
  · exact finish

theorem reserve_outcome_eq (call : Call) (reservationId : String) (now pruning : Time) :
    (reserve store receipts call reservationId now pruning monitor guard).1 =
      match call.validate store,
          (reserveStatements store receipts call reservationId now pruning monitor).run guard with
      | .error failure, _ => .error failure
      | .ok _, .ok _ => .ok (.admitted ⟨store.path, store.ledgerKey, reservationId, store.accountingBasis⟩)
      | .ok _, .error (.breach breach) => .ok (.blocked breach)
      | .ok _, .error (.failure failure) => .error failure := by
  unfold reserve atomically
  cases call.validate store with
  | error failure => rfl
  | ok =>
    cases (reserveStatements store receipts call reservationId now pruning monitor).run guard with
    | ok pair => rfl
    | error abort => cases abort <;> rfl

theorem reserve_avoids
    (checked : ∀ trimmed : Guard, trimmed.standing store.ledgerKey = guard.standing store.ledgerKey →
      Avoids (Abort.failure unresolvedExpired) (checkCaps store receipts call now monitor trimmed)) :
    Avoids unresolvedExpired (reserve store receipts call reservationId now pruning monitor guard).1 := by
  have statements : Avoids (Abort.failure unresolvedExpired)
      ((reserveStatements store receipts call reservationId now pruning monitor).run guard) :=
    reserveStatements_avoids (.widen (fun _ => Abort.failure.inj) bindBasis_spares)
      (.widen (fun _ => Abort.failure.inj) (maintainHistory_spares _ _))
      (.widen (fun _ => Abort.failure.inj) (insertReservation_spares _)) checked
  have validated : Avoids unresolvedExpired (call.validate store) := validate_avoids call
  rw [reserve_outcome_eq]
  split
  next failed => exact .error fun same => validated.never (failed.trans (congrArg _ same))
  next => exact .ok _
  next => exact .ok _
  next raised => exact .error fun same => statements.never (raised.trans (same ▸ rfl))

/-- If no check can be completed, neither an admission nor a refusal by a cap is
the outcome. -/
theorem reserve_ne_ok (limited : call.force = false) (enabled : call.caps.enabled = true)
    (unchecked : ∀ trimmed : Guard, trimmed.standing store.ledgerKey = guard.standing store.ledgerKey →
      ∃ failure, checkCaps store receipts call now monitor trimmed = .error (.failure failure))
    (outcome : Outcome) :
    (reserve store receipts call reservationId now pruning monitor guard).1 ≠ .ok outcome := by
  intro succeeded
  cases outcome with
  | admitted ref =>
    obtain ⟨refused, _⟩ | ⟨trimmed, _, kept, checked, _⟩ :=
      World.reserve_outcome (Prod.ext succeeded rfl : reserve store receipts call reservationId now pruning monitor guard = (_, _))
    · cases refused
    · obtain ⟨failure, failed⟩ := unchecked trimmed (kept.undisturbed fun _ _ closed => closed)
      exact nomatch (checked limited enabled).symm.trans failed
  | blocked breach =>
    have different (raised : Failure) : Abort.failure raised ≠ .breach breach := fun same => nomatch same
    have statements : Avoids (Abort.breach breach)
        ((reserveStatements store receipts call reservationId now pruning monitor).run guard) := by
      refine reserveStatements_avoids (.widen_of_ne different _) (.widen_of_ne different _)
        (.widen_of_ne different _)
        fun trimmed same => ?_
      obtain ⟨failure, failed⟩ := unchecked trimmed same
      rw [failed]
      exact .error (different failure)
    rw [reserve_outcome_eq] at succeeded
    split at succeeded
    next => cases succeeded
    next => cases succeeded
    next raised =>
      cases succeeded
      exact statements.never raised
    next => cases succeeded

end avoids

section recognised
variable {store : Store} {receipts : Receipts} {monitor : Monitor} {guard : Guard}

theorem tokenReceipts_ok {seen : List String} {rows : List Row} {entries : List (Row × TokenObservation)}
    (computed : tokenReceipts store guard seen rows = .ok entries) :
    entries.map Prod.fst = rows ∧ ∀ row ∈ rows, row.TokenCompleteFor store.ledgerKey := by
  induction rows generalizing seen entries with
  | nil =>
    cases computed
    exact ⟨rfl, fun _ member => absurd member List.not_mem_nil⟩
  | cons row rows ih =>
    obtain ⟨observation, received, computed⟩ := except_bind_ok.mp computed
    obtain ⟨rest, others, computed⟩ := except_bind_ok.mp computed
    cases computed
    obtain ⟨same, complete⟩ := ih others
    obtain ⟨_, first, _⟩ := except_bind_ok.mp received
    refine ⟨congrArg (row :: ·) same, fun other member => ?_⟩
    obtain rfl | inside := List.mem_cons.mp member
    · exact (ensure_ok.mp first).1
    · exact complete other inside

theorem recordedTokens_ok {cutoff : Int} {agentId : String} {used : Usage} {committed : Committed}
    (computed : recordedTokens store monitor guard cutoff agentId = .ok (used, committed)) :
    committed = correlate (fun row => Text.lower row.agentId) (since cutoff monitor.requests.rows) ∧
      ∀ row ∈ since cutoff monitor.requests.rows, row.TokenCompleteFor store.ledgerKey := by
  obtain ⟨entries, computed, totals⟩ := except_bind_ok.mp computed
  obtain ⟨_, _, computed⟩ := except_bind_ok.mp computed
  obtain ⟨_, _, computed⟩ := except_bind_ok.mp computed
  obtain ⟨_, _, computed⟩ := except_bind_ok.mp computed
  obtain ⟨_, _, computed⟩ := except_bind_ok.mp computed
  obtain ⟨same, complete⟩ := tokenReceipts_ok computed
  refine ⟨?_, complete⟩
  unfold tokenTotals at totals
  dsimp only at totals
  split at totals
  · cases totals
  · cases totals
    rw [same]

theorem recorded_tokens_ok {agentId : String} {windowSeconds : Int} {now : Time}
    {requirePrices : Bool} {used : Usage}
    {committed : Committed} (tokens : store.accountingBasis = .providerTokens)
    (computed : recorded store receipts agentId windowSeconds now requirePrices monitor guard =
      .ok (used, committed)) :
    recordedTokens store monitor guard (windowStart windowSeconds now) agentId = .ok (used, committed) := by
  unfold recorded at computed
  rw [tokens] at computed
  obtain ⟨_, _, computed⟩ := except_bind_ok.mp computed
  obtain ⟨_, _, computed⟩ := except_bind_ok.mp computed
  exact computed

namespace World
variable {world : World}

/-- Every overdue hold has its usage committed: at most its settlement was lost. -/
def SettlementsLost (store : Store) (now : Time) (world : World) : Prop :=
  ∀ hold ∈ world.guard.standing store.ledgerKey, hold.Overdue now →
    ∃ row ∈ world.monitor.requests.rows, row.SettlesFor store.ledgerKey hold.reservationId

/-- Usage is priced, or the row of every overdue hold is inside the window. -/
def Recognised (store : Store) (windowSeconds : Int) (now : Time) (world : World) : Prop :=
  store.accountingBasis = .pricedUsage ∨ ∀ hold ∈ world.guard.standing store.ledgerKey, hold.Overdue now →
    ∃ row ∈ since (windowStart windowSeconds now) world.monitor.requests.rows,
      row.SettlesFor store.ledgerKey hold.reservationId

theorem recognised_committed {agentId : String} {windowSeconds : Int} {now : Time}
    {requirePrices : Bool} {used : Usage}
    {committed : Committed} {hold : Reservation} (supplied : Supplied store world)
    (lost : SettlementsLost store now world)
    (seen : Recognised store windowSeconds now world)
    (computed : recorded store receipts agentId windowSeconds now requirePrices world.monitor guard = .ok (used, committed))
    (standing : hold ∈ world.guard.standing store.ledgerKey) (overdue : hold.Overdue now) :
    committed hold.reservationId ≠ none := by
  intro missing
  cases basis : store.accountingBasis with
  | pricedUsage =>
    obtain ⟨row, member, keyed, complete⟩ := lost hold standing overdue
    obtain ⟨named, own, same⟩ := Row.guardKey_eq_some.mp keyed
    obtain ⟨_, rfl, _⟩ := recorded_ok basis computed
    refine committedUsage_eq_none.mp missing ⟨row, member, ⟨own, same ▸ named, ?_⟩, same⟩
    refine complete.resolve_right fun tokens => ?_
    obtain ⟨_, _, own⟩ := supplied.rows row member
    exact nomatch basis.symm.trans (own.tokenComplete tokens).1
  | providerTokens =>
    obtain ⟨row, member, keyed, _⟩ :=
      seen.resolve_left (fun priced => nomatch basis.symm.trans priced) hold standing overdue
    obtain ⟨rfl, _⟩ := recordedTokens_ok (recorded_tokens_ok basis computed)
    exact correlate_eq_none.mp missing row member (Row.guardKey_eq_some.mp keyed).2.2

theorem unrecognised_unchecked {call : Call} {now : Time}
    (unseen : ¬ Recognised store call.caps.windowSeconds now world)
    (trimmed : Guard) (same : trimmed.standing store.ledgerKey = world.guard.standing store.ledgerKey) :
    ∃ failure, checkCaps store receipts call now world.monitor trimmed = .error (.failure failure) := by
  have basis : store.accountingBasis = .providerTokens := by
    cases basis : store.accountingBasis with
    | pricedUsage => exact absurd (.inl basis) unseen
    | providerTokens => rfl
  obtain ⟨_, unseen⟩ := not_or.mp unseen
  push Not at unseen
  obtain ⟨hold, standing, overdue, none⟩ := unseen
  unfold checkCaps
  cases computed : recorded store receipts call.agent call.caps.windowSeconds now call.requirePrices world.monitor trimmed with
  | error failure => exact ⟨failure, rfl⟩
  | ok pair =>
    obtain ⟨used, committed⟩ := pair
    obtain ⟨rfl, complete⟩ := recordedTokens_ok (recorded_tokens_ok basis computed)
    cases summed : active store call.agent now
      (correlate (fun row => Text.lower row.agentId) (since (windowStart call.caps.windowSeconds now)
        world.monitor.requests.rows)) trimmed with
    | error failure =>
        exact ⟨failure, by simp only [mapError_of_ok, bind, Except.bind, summed, mapError_of_error]⟩
    | ok held =>
      -- A completed loop has passed the hold, so a row of the window is its own.
      have passed := (active_ok summed).1 hold (same ▸ standing)
      obtain ⟨attribution, found⟩ :=
        Option.ne_none_iff_exists'.mp fun missing => passed.unexpired missing overdue
      obtain ⟨row, member, own, _⟩ := correlate_eq_some found
      obtain ⟨named, key, tokens, _⟩ := complete row member
      exact absurd ⟨Row.guardKey_eq_some.mpr ⟨own ▸ named, key, own⟩, .inr tokens⟩ (none row member)

theorem validate_tokens {call : Call} {result : Unit} (tokens : store.accountingBasis = .providerTokens)
    (valid : call.validate store = .ok result) : call.force = false ∧ call.caps.enabled = true := by
  iterate 8 obtain ⟨_, _, valid⟩ := except_bind_ok.mp valid
  have allowed := ensure_ok.mp valid
  simp only [tokens, true_and, not_or, Bool.not_eq_true, Bool.not_eq_false] at allowed
  exact ⟨allowed.1, allowed.2.1⟩

/-- In every reachable state in which only settlements were lost, an admission does
not take an overdue hold for unresolved as long as every such hold is recognised;
otherwise no admission gets past the holds at all. -/
theorem lost_settlement_recognised {clock : Time} {domain : Option Domain}
    (reached : Reaches store receipts (fun _ _ => True) (World.fresh clock domain) world) (call : Call)
    (reservationId : String) (now pruning : Time) (lost : SettlementsLost store now world) :
    let result := (reserve store receipts call reservationId now pruning world.monitor world.guard).1
    (Recognised store call.caps.windowSeconds now world →
      result ≠ .error (.unavailable "unresolved expired reservation")) ∧
    (¬ Recognised store call.caps.windowSeconds now world → ∀ outcome, result ≠ .ok outcome) := by
  constructor
  · intro seen
    refine (reserve_avoids fun trimmed same =>
      checkCaps_avoids fun used committed computed hold standing overdue => ?_).never
    exact recognised_committed (.reached reached) lost seen computed (same ▸ standing) overdue
  · intro unseen outcome succeeded
    have tokens : store.accountingBasis = .providerTokens := by
      cases basis : store.accountingBasis with
      | pricedUsage => exact absurd (.inl basis) unseen
      | providerTokens => rfl
    cases valid : call.validate store with
    | error failure =>
      rw [reserve_outcome_eq, valid] at succeeded
      cases succeeded
    | ok =>
      obtain ⟨limited, enabled⟩ := validate_tokens tokens valid
      exact reserve_ne_ok limited enabled (fun trimmed same =>
        unrecognised_unchecked unseen trimmed same) outcome succeeded

end World
end recognised

section wedged

instance (store : Store) (now : Time) (world : World) : Decidable (world.SettlementsLost store now) :=
  inferInstanceAs (Decidable (∀ hold ∈ _, _))

def tokenStore : Store := { sampleStore with accountingBasis := .providerTokens }

def tokenCall : Call :=
  ⟨"session-a", "agent-a", "instance-a", "request-a", ⟨0, 300, 200, 0, by decide⟩,
    ⟨true, 3600, 0, 0, 0, 0, 1000, 0⟩, 600, false⟩

def tokenObservation : TokenObservation where
  provider := some "anthropic"
  requestModel := some "claude-sonnet-4-5"
  uncachedInputTokens := some 2
  cacheReadTokens := some 1
  cacheCreationTokens := some 0
  inputTokens := some 3
  outputTokens := some 2
  responseComplete := true
  tokenUsageComplete := true

def tokenRow : Row :=
  { sampleRow "tpr_0a" 0 false with
    guardTokenUsageComplete := true
    providerInputTokens := some 2
    providerOutputTokens := some 2
    providerCacheReadTokens := some 1
    providerCacheCreationTokens := some 0
    providerUsageSource := "provider_usage_object"
    providerUsageProvider := "anthropic" }

/-- A request whose row is committed and whose settlement never comes, and some
time after it. -/
def lostRun (later : Int) : List Action :=
  [.begin 0 sampleAttribution "instance-a" "tpc_0a" 3600, .claim 0 tokenCall "tpr_0a", .look,
    .decide (seconds 1750000000),
    .send 0 none, .recordTokens 0 tokenObservation, .log 0 tokenRow, .commit 0, .tick (seconds (1750000000 + later))]

/-- The hold has run out after twenty minutes; its row is an hour's. -/
theorem lost_settlement_recognised_in_window : ∃ world,
    World.Reaches tokenStore noReceipts (fun _ _ => True) sampleStart world ∧
      world.SettlementsLost tokenStore world.clock ∧
      (∃ hold ∈ world.guard.standing tokenStore.ledgerKey, hold.Overdue world.clock) ∧
      (reserve tokenStore noReceipts tokenCall "tpr_0b" world.clock world.clock world.monitor world.guard).1 ≠
        .error (.unavailable "unresolved expired reservation") := by
  obtain ⟨world, reached, lost, overdue, seen⟩ : ∃ world,
      World.Reaches tokenStore noReceipts (fun _ _ => True) sampleStart world ∧
        world.SettlementsLost tokenStore world.clock ∧
        (∃ hold ∈ world.guard.standing tokenStore.ledgerKey, hold.Overdue world.clock) ∧
        ∀ hold ∈ world.guard.standing tokenStore.ledgerKey, hold.Overdue world.clock →
          ∃ row ∈ since (windowStart 3600 world.clock) world.monitor.requests.rows,
            row.SettlesFor tokenStore.ledgerKey hold.reservationId :=
    World.play_any (lostRun 1200) (by decide +kernel)
  exact ⟨world, reached, lost, overdue,
    (World.lost_settlement_recognised reached tokenCall "tpr_0b" world.clock world.clock lost).1 (.inr seen)⟩

/-- Two hours later the row has left the window and the ledger refuses everyone. -/
theorem stale_row_wedges : ∃ world,
    World.Reaches tokenStore noReceipts (fun _ _ => True) sampleStart world ∧
      world.SettlementsLost tokenStore world.clock ∧
      (reserve tokenStore noReceipts tokenCall "tpr_0b" world.clock world.clock world.monitor world.guard).1 =
        .error (.unavailable "unresolved expired reservation") :=
  World.play_any (lostRun 7200) (by decide +kernel)

end wedged
end TokenPak.Reservations
