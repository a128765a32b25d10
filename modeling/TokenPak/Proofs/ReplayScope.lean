import TokenPak.Proofs.EvaluateScope
import TokenPak.Proofs.GrantBudget
import TokenPak.Proofs.HoldRelease

/-! Sessions are isolated at the hold table. Held bytes are replayed only to an
approving request of the scope they were held under, and no step of one session
changes a hold of another, except that the sweep expires stale ones. -/

namespace TokenPak.SpendGuard.ReplayScope
open Library Pending EvaluateContract EvaluateScope GrantBudget

def holdKey (hold : PendingRequest) : ScopeKey := scopeKey hold.sessionId hold.model hold.rawRequestHeaders

theorem normalizedHeader_redactHeaders {name : String} (kept : name ∉ sensitiveHeaders) (headers : Headers) :
    normalizedHeader name (redactHeaders headers) = normalizedHeader name headers := by
  have named (header : String × String) :
      decide (decide (Text.lower header.1 ∉ sensitiveHeaders) = true ∧
        decide (Text.lower header.1 = name) = true) =
        decide (Text.lower header.1 = name) := by
    by_cases same : Text.lower header.1 = name
    · simp [same, kept]
    · simp [same]
  unfold normalizedHeader redactHeaders
  rw [← List.filter_reverse, List.find?_filter]
  simp only [named]

theorem holdKey_row (draft : Draft) (pendingId : String) (now : Time) :
    holdKey (draft.row pendingId now) = scopeKey draft.sessionId draft.model draft.headers := by
  simp only [holdKey, Draft.row, scopeKey]
  rw [normalizedHeader_redactHeaders (by decide), normalizedHeader_redactHeaders (by decide)]

theorem holdKey_successor {row later : PendingRequest} (next : Successor row later) :
    holdKey later = holdKey row := by
  rw [next.same]
  rfl

theorem latestHold_scope {sessionId model : String} {headers : Headers} {table : Table}
    {hold : PendingRequest}
    (found : latestHold sessionId model headers table = some hold) :
    hold ∈ table.rows ∧ hold.sessionId = sessionId ∧ holdKey hold = scopeKey sessionId model headers := by
  unfold latestHold at found
  split at found
  · cases found
  · obtain ⟨search, _⟩ := Option.filter_eq_some_iff.mp found
    obtain ⟨member, scope⟩ := List.mem_filter.mp (newest_mem search)
    obtain ⟨session, key⟩ := of_decide_eq_true scope
    refine ⟨member, session, ?_⟩
    rw [holdKey, session]
    exact key

/-- Every row that a lookup returned or that was stored is in the table, and the
log says under which scope. -/
structure Tracked {Thread : Type} (world : World) (log : List (Thread × GuardEvent)) : Prop where
  found : ∀ thread sessionId model headers hold,
    (thread, ⟨.latestHold sessionId model headers, .ok (some hold)⟩) ∈ log →
      hold.sessionId = sessionId ∧ holdKey hold = scopeKey sessionId model headers ∧
      ∃ row ∈ world.holds.rows, Successor hold row
  stored : ∀ thread draft hold, (thread, ⟨.store draft, .ok hold⟩) ∈ log →
      hold.sessionId = draft.sessionId ∧ holdKey hold = scopeKey draft.sessionId draft.model draft.headers ∧
      ∃ row ∈ world.holds.rows, Successor hold row
  taken : ∀ thread pendingId hold, (thread, ⟨.consume pendingId, .ok (some hold)⟩) ∈ log →
      hold.pendingId = pendingId ∧ ∃ row ∈ world.holds.rows, Successor hold row

section tracked
variable {Thread : Type} {world after : World} {log : List (Thread × GuardEvent)} {thread : Thread}
  {event : GuardEvent}

theorem carried (step : World.Step world event after) {hold : PendingRequest}
    (present : ∃ row ∈ world.holds.rows, Successor hold row) :
    ∃ row ∈ after.holds.rows, Successor hold row := by
  obtain ⟨row, member, next⟩ := present
  obtain ⟨later, remains, following⟩ := step.successor member
  exact ⟨later, remains, next.trans following⟩

theorem Tracked.step (tracked : Tracked world log) (step : World.Step world event after) :
    Tracked after (log ++ [(thread, event)]) where
  found actor sessionId model headers hold member := by
    rcases List.mem_append.mp member with before | last
    · obtain ⟨session, key, present⟩ := tracked.found actor sessionId model headers hold before
      exact ⟨session, key, carried step present⟩
    · obtain ⟨-, rfl⟩ := Prod.mk.inj (List.mem_singleton.mp last)
      obtain ⟨ambient, _, answer, rfl⟩ := step.answer
      obtain ⟨present, session, key⟩ := latestHold_scope (Except.ok.inj answer)
      exact ⟨session, key, hold, present, .refl hold⟩
  stored actor draft hold member := by
    rcases List.mem_append.mp member with before | last
    · obtain ⟨session, key, present⟩ := tracked.stored actor draft hold before
      exact ⟨session, key, carried step present⟩
    · obtain ⟨-, rfl⟩ := Prod.mk.inj (List.mem_singleton.mp last)
      obtain ⟨ambient, _, answer, rfl⟩ := step.answer
      simp only [World.react, Pending.store] at answer ⊢
      split at answer
      · cases answer
      · split at answer
        next named fresh =>
          obtain rfl := Except.ok.inj answer
          rw [if_neg named, dif_pos fresh]
          exact ⟨rfl, holdKey_row _ _ _, _, List.mem_append_right _ (List.mem_singleton_self _), .refl _⟩
        next => cases answer
  taken actor pendingId hold member := by
    rcases List.mem_append.mp member with before | last
    · obtain ⟨named, present⟩ := tracked.taken actor pendingId hold before
      exact ⟨named, carried step present⟩
    · obtain ⟨-, rfl⟩ := Prod.mk.inj (List.mem_singleton.mp last)
      obtain ⟨ambient, _, answer, rfl⟩ := step.answer
      obtain ⟨_, _, named, present⟩ := World.consume_answered answer
      exact ⟨named, hold, present, .refl hold⟩

end tracked

def others (sessionId : String) (world : World) : List PendingRequest :=
  world.holds.rows.filter (·.sessionId ≠ sessionId)

/-- Nothing happens to the holds of other sessions, except that some past their
expiry are marked expired. -/
def Spares (sessionId : String) (before after : World) : Prop :=
  ∃ stale : PendingRequest → Bool,
    (∀ row, stale row = true → row.status = .pending ∧ row.expiresAt < after.ambient.clock) ∧
    others sessionId after =
      (others sessionId before).map fun row => if stale row then { row with status := .expired } else row

section frame
variable {sessionId : String} {before after : World}

theorem others_update {f : PendingRequest → PendingRequest}
    (rows : after.holds.rows = before.holds.rows.map f)
    (kept : ∀ row, (f row).sessionId = row.sessionId) :
    others sessionId after = (others sessionId before).map f := by
  unfold others
  rw [rows, List.filter_map]
  congr 2
  funext row
  simp [kept]

theorem spares_same (same : after.holds = before.holds) : Spares sessionId before after := by
  refine ⟨fun _ => false, by simp, ?_⟩
  simp [others, same]

theorem spares_update {f : PendingRequest → PendingRequest}
    (rows : after.holds.rows = before.holds.rows.map f)
    (kept : ∀ row, (f row).sessionId = row.sessionId)
    (fixed : ∀ row ∈ before.holds.rows, row.sessionId ≠ sessionId → f row = row) :
    Spares sessionId before after := by
  refine ⟨fun _ => false, by simp, ?_⟩
  rw [others_update rows kept]
  apply List.map_congr_left
  intro row member
  obtain ⟨present, elsewhere⟩ := List.mem_filter.mp member
  simpa using fixed row present (of_decide_eq_true elsewhere)

theorem spares_setStatus {status : HoldStatus} {selects : PendingRequest → Prop} [DecidablePred selects]
    (holds : after.holds = setStatus status selects before.holds)
    (own : ∀ row ∈ before.holds.rows, selects row → row.sessionId = sessionId) :
    Spares sessionId before after := by
  apply spares_update (f := fun row => if selects row then { row with status } else row) (by rw [holds]; rfl)
  · intro row
    split <;> rfl
  · intro row member elsewhere
    exact if_neg fun selected => elsewhere (own row member selected)

theorem own_of_pendingId {pendingId : String}
    (known : ∃ row ∈ before.holds.rows, row.pendingId = pendingId ∧ row.sessionId = sessionId) :
    ∀ row ∈ before.holds.rows, row.pendingId = pendingId → row.sessionId = sessionId := by
  obtain ⟨row, member, named, session⟩ := known
  intro other present same
  rw [Table.eq_of_pendingId present member (same.trans named.symm)]
  exact session

variable {request : Request} {past : List GuardEvent}

/-- The rows that the call's own lookups and insertions named are of its session. -/
structure Known (request : Request) (past : List GuardEvent) (world : World) : Prop where
  found : ∀ hold, Found request past hold →
    ∃ row ∈ world.holds.rows, row.pendingId = hold.pendingId ∧ row.sessionId = request.sessionId
  stored : ∀ draft hold, ⟨.store draft, .ok hold⟩ ∈ past → draft.sessionId = request.sessionId →
    ∃ row ∈ world.holds.rows, row.pendingId = hold.pendingId ∧ row.sessionId = request.sessionId

theorem Known.drift {world : World} (known : Known request past world) (ambient : Ambient) :
    Known request past (world.drift ambient) := ⟨known.found, known.stored⟩

theorem react_spares {world : World} {op : Op} (known : Known request past world)
    (scope : Scoped request past op) :
    Spares request.sessionId world (world.react op).2 := by
  cases op with
  | expireOld =>
    refine ⟨fun row => decide (Stale world.ambient.clock row), fun row stale => of_decide_eq_true stale, ?_⟩
    rw [others_update (f := fun row =>
      if Stale world.ambient.clock row then { row with status := .expired } else row) rfl
      (fun row => by split <;> rfl)]
    simp
  | discardExpired sessionId keepId =>
    obtain rfl := scope
    exact spares_setStatus rfl fun row _ superseded => superseded.1
  | discard pendingId =>
    obtain ⟨hold, found, rfl⟩ := scope
    exact spares_setStatus rfl fun row member open_ =>
      own_of_pendingId (known.found hold found) row member open_.1
  | consume pendingId =>
    obtain ⟨hold, found, rfl⟩ := scope
    exact spares_setStatus rfl fun row member pending =>
      own_of_pendingId (known.found hold ⟨_, found.1⟩) row member pending.1
  | consumeExpired key pendingId replyHash =>
    obtain ⟨hold, found, rfl⟩ := scope
    have own := own_of_pendingId (known.found hold found)
    simp only [World.react, Approvals.consumeExpired]
    split
    · exact spares_same rfl
    · split
      · exact spares_setStatus rfl fun row member expired => own row member expired.1
      · exact spares_setStatus rfl fun row member expired => own row member expired.1
  | store draft =>
    obtain ⟨session, -, -⟩ := scope
    simp only [World.react, Pending.store]
    split
    · exact spares_same rfl
    · split
      · refine ⟨fun _ => false, by simp, ?_⟩
        simp [others, Pending.Table.insert, Draft.row, session]
      · exact spares_same rfl
  | rememberBlockResponse pendingId response =>
    obtain ⟨draft, hold, stored, session, rfl⟩ := scope
    have own := own_of_pendingId (known.stored draft hold stored session)
    apply spares_update (f := fun row => if row.pendingId = hold.pendingId then
      { row with blockResponse := some response } else row) rfl
    · intro row
      split <;> rfl
    · intro row member elsewhere
      exact if_neg fun named => elsewhere (own row member named)
  | claimSweep process =>
    simp only [World.react]
    split <;> exact spares_same rfl
  | _ => exact spares_same rfl

theorem step_spares {world after : World} {event : GuardEvent} (known : Known request past world)
    (scope : Scoped request past event.op) (step : World.Step world event after) :
    Spares request.sessionId world after := by
  cases step with
  | answered later => exact react_spares (known.drift _) scope
  | raised later => exact spares_same rfl
  | raisedAfterConsume later => exact react_spares (known.drift _) scope

end frame

variable {Thread : Type} [DecidableEq Thread]

theorem reaches_tracked {world : World} {calls : Thread → Evaluation} {pool : GuardPool Thread}
    (reached : Pool.Reaches (fun _ => World.Step) (evaluations world calls) pool) :
    Tracked pool.world pool.log := by
  apply reached.invariant Tracked
  · exact ⟨by simp [evaluations, Pool.init], by simp [evaluations, Pool.init], by simp [evaluations, Pool.init]⟩
  · intro before after log thread event tracked step
    exact tracked.step step

/-- A call holds its own request. -/
theorem reaches_drafted {world : World} {calls : Thread → Evaluation} {pool : GuardPool Thread}
    (reached : Pool.Reaches (fun _ => World.Step) (evaluations world calls) pool) :
    ∀ thread draft reply, (thread, ⟨.store draft, reply⟩) ∈ pool.log →
      scopeKey draft.sessionId draft.model draft.headers = (calls thread).request.approvalKey := by
  apply reached.invariant_of_contract (fun _ log => ∀ thread draft reply,
    (thread, ⟨.store draft, reply⟩) ∈ log →
    scopeKey draft.sessionId draft.model draft.headers = (calls thread).request.approvalKey)
    (fun thread => evaluate_stays _ (calls thread).cfg _)
  · simp [evaluations, Pool.init]
  · intro before after log thread event drafted scope step actor draft reply member
    rcases List.mem_append.mp member with earlier | last
    · exact drafted actor draft reply earlier
    · obtain ⟨rfl, rfl⟩ := Prod.mk.inj (List.mem_singleton.mp last)
      obtain ⟨session, model, headers⟩ := scope
      rw [session, model, headers]
      rfl

theorem Tracked.known {world : World} {log : List (Thread × GuardEvent)}
    (tracked : Tracked world log) (thread : Thread)
    (request : Request) : Known request (Pool.history thread log) world where
  found hold looked := by
    obtain ⟨headers, member⟩ := looked
    obtain ⟨session, _, row, present, next⟩ := tracked.found thread _ _ _ _ (Pool.mem_history.mp member)
    refine ⟨row, present, next.pendingId, ?_⟩
    rw [next.same]
    exact session
  stored draft hold inserted session := by
    obtain ⟨same, _, row, present, next⟩ := tracked.stored thread _ _ (Pool.mem_history.mp inserted)
    refine ⟨row, present, next.pendingId, ?_⟩
    rw [next.same]
    exact same.trans session

theorem approving_spelled {analysis : Analysis} {request : Request} (approving : Approving analysis request) :
    (analysis.parseIntent (forwardBody analysis request) = .positive ∨
      ∃ tip ∈ directive analysis request, tip.allowScope.isSome = true ∨ tip.bypass = true) ∧
    analysis.parseIntent (forwardBody analysis request) ≠ .negative := by
  unfold Approving approves at approving
  rcases Bool.or_eq_true_iff.mp approving with said | directed
  · have positive := of_decide_eq_true said
    exact ⟨.inl positive, by simp [positive]⟩
  · obtain ⟨authorized, unrefused⟩ := Bool.and_eq_true_iff.mp directed
    obtain ⟨tip, carried, allows⟩ := (Option.any_eq_true _ _).mp authorized
    exact ⟨.inr ⟨tip, carried, Bool.or_eq_true_iff.mp allows⟩, of_decide_eq_true unrefused⟩

/-- Over any interleaving of evaluations: a replay goes to an approving request of
the scope the bytes were held under, which is the scope of the request that was
held, and every step spares the holds of the other sessions. -/
theorem replay_scope_isolated (world : World) (calls : Thread → Evaluation) {pool : GuardPool Thread}
    (reached : Pool.Reaches (fun _ => World.Step) (evaluations world calls) pool) :
    (∀ thread outcome, pool.threads thread = .done (.ok outcome) → outcome.kind = .replay →
      ∃ hold ∈ pool.world.holds.rows, outcome.pendingId = some hold.pendingId ∧
        outcome.body = some hold.rawRequestBlob ∧ holdKey hold = (calls thread).request.approvalKey ∧
        ((calls thread).analysis.parseIntent (forwardBody (calls thread).analysis (calls thread).request) = .positive ∨
          ∃ tip ∈ directive (calls thread).analysis (calls thread).request,
            tip.allowScope.isSome = true ∨ tip.bypass = true) ∧
        (calls thread).analysis.parseIntent (forwardBody (calls thread).analysis (calls thread).request) ≠ .negative) ∧
    (∀ thread draft hold, (thread, ⟨.store draft, .ok hold⟩) ∈ pool.log →
      holdKey hold = (calls thread).request.approvalKey) ∧
    ∀ next thread event, Performed pool next thread event →
      Spares (calls thread).request.sessionId pool.world next.world := by
  have tracked := reaches_tracked reached
  refine ⟨fun thread outcome finished replayed => ?_, fun thread draft hold stored => ?_,
    fun next thread event performed => ?_⟩
  · have approving : Approving (calls thread).analysis (calls thread).request :=
      reached.result (fun thread => evaluate_stays _ (calls thread).cfg _) finished replayed
    have accounted := reached.result (fun thread => evaluate_keeps _ _ _) finished
    obtain ⟨hold, consumed, looked, taken, sent, named, _⟩ := accounted.replayed replayed
    obtain ⟨_, key, row, present, next⟩ := tracked.found thread _ _ _ _ (Pool.mem_history.mp looked)
    obtain ⟨same, later, remains, following⟩ := tracked.taken thread _ _ (Pool.mem_history.mp taken)
    have one : row = later := Table.eq_of_pendingId present remains
      (next.pendingId.trans (same.symm.trans following.pendingId.symm))
    refine ⟨later, remains, ?_, ?_, ?_, approving_spelled approving⟩
    · rw [named, following.pendingId]
    · rw [sent, following.rawRequestBlob]
    · rw [← one, holdKey_successor next]
      exact key
  · rw [(tracked.stored thread draft hold stored).2.1]
    exact reaches_drafted reached thread draft _ stored
  · obtain ⟨⟨rest, waiting⟩, step⟩ := performed.waiting
    have contract := reached.ensures (fun thread => evaluate_stays _ (calls thread).cfg _) thread
    rw [waiting] at contract
    exact step_spares (tracked.known thread _) contract.1 step

/-! A yes from the session that holds the request and a yes from another one. -/

def stranger : Evaluation :=
  { HoldRelease.approval with request := { HoldRelease.approval.request with sessionId := "t" } }

def sessions (own : Bool) : Evaluation := if own then HoldRelease.approval else stranger

def twoSessions : GuardPool Bool :=
  Pool.follow World.turn ((List.replicate 12 [(false, 1), (true, 1)]).flatten)
    (evaluations HoldRelease.heldWorld sessions)

theorem replay_scope_isolated_sessions :
    twoSessions.threads true =
      .done (.ok (replayOutcome { HoldRelease.approvedHold with status := .consumed } none)) ∧
    (∃ outcome, twoSessions.threads false = .done (.ok outcome) ∧ outcome.kind = .block) ∧
    ∃ hold ∈ twoSessions.world.holds.rows, holdKey hold = HoldRelease.approval.request.approvalKey := by
  have reached : Pool.Reaches (fun _ => World.Step)
      (evaluations HoldRelease.heldWorld sessions) twoSessions :=
    Pool.follow_reaches (fun _ => World.turn_step) _ _
  have replayed : twoSessions.threads true =
      .done (.ok (replayOutcome { HoldRelease.approvedHold with status := .consumed } none)) := by
    with_unfolding_all rfl
  obtain ⟨hold, member, _, _, key, _⟩ := (replay_scope_isolated _ sessions reached).1 true _ replayed rfl
  exact ⟨replayed, ⟨_, by with_unfolding_all rfl, rfl⟩, hold, member, key⟩

end TokenPak.SpendGuard.ReplayScope
