import TokenPak.Proofs.EvaluateContract
import TokenPak.Proofs.HoldTable

/-! What one evaluation that sends nothing does to the grants. It touches no
other scope, and its own grant is kept, revoked by a cancellation or dropped
because it no longer covers the request. -/

namespace TokenPak.SpendGuard.GrantFrame
open Library EvaluateContract Pending

theorem react_undisturbed (world : World) {op : Op} {row : PendingRequest} (member : row ∈ world.holds.rows)
    (open_ : Open row) (undisturbed : Undisturbed row.pendingId op) :
    ∃ later ∈ (world.react op).2.holds.rows, Successor row later ∧ Open later := by
  have kept : ∃ later ∈ world.holds.rows, Successor row later ∧ Open later := ⟨row, member, .refl row, open_⟩
  have unselected (status : HoldStatus) (selects : PendingRequest → Prop) [DecidablePred selects]
      (spared : ¬selects row) : ∃ later ∈ (setStatus status selects world.holds).rows,
          Successor row later ∧ Open later :=
    ⟨row, List.mem_map.mpr ⟨row, member, if_neg spared⟩, .refl row, open_⟩
  cases op with
  | expireOld =>
    refine ⟨_, List.mem_map_of_mem member, gentle_setStatus .expired (fun row stale => .inl stale.1) row, ?_⟩
    split
    · exact .inr rfl
    · exact open_
  | discardExpired sessionId keepId =>
    exact unselected .discarded (Superseded sessionId keepId _) fun superseded =>
      superseded.2.2.2 (Eq.symm undisturbed)
  | discard id => exact unselected .discarded (OpenAs id) fun selected => undisturbed selected.1.symm
  | consume id =>
      exact unselected .consumed (Identified id .pending) fun selected =>
        undisturbed selected.1.symm
  | consumeExpired key id replyHash => exact undisturbed.elim
  | store draft =>
    simp only [World.react, Pending.store]
    split
    · exact kept
    · split
      · exact ⟨row, List.mem_append_left _ member, .refl row, open_⟩
      · exact kept
  | rememberBlockResponse id response =>
    refine ⟨_, List.mem_map_of_mem member, ?_⟩
    split
    · exact ⟨⟨rfl, fun state => state, fun state => state⟩, open_⟩
    · exact ⟨.refl row, open_⟩
  | claimSweep process =>
    simp only [World.react]
    split <;> exact kept
  | _ => exact kept

theorem step_undisturbed {world after : World} {event : GuardEvent} {row : PendingRequest}
    (step : World.Step world event after) (member : row ∈ world.holds.rows) (open_ : Open row)
    (undisturbed : Undisturbed row.pendingId event.op) :
    ∃ later ∈ after.holds.rows, Successor row later ∧ Open later := by
  cases step with
  | answered later => exact react_undisturbed (world.drift _) member open_ undisturbed
  | raised later => exact ⟨row, member, .refl row, open_⟩
  | raisedAfterConsume later => exact react_undisturbed (world.drift _) member open_ undisturbed

section sole
variable {request : Request} {world after : World} {past : List GuardEvent} {event : GuardEvent}

structure Alone (request : Request) (world : World) (past : List GuardEvent) : Prop where
  held : ∀ late, ⟨.latestHold request.sessionId request.model request.headers, .ok (some late)⟩ ∈ past →
    (∀ event ∈ past, Undisturbed late.pendingId event.op) →
    ∃ row ∈ world.holds.rows, row.pendingId = late.pendingId ∧ row.expiresAt = late.expiresAt ∧ Open row
  clock : ∀ now, ⟨.now, .ok now⟩ ∈ past → now ≤ world.ambient.clock
  unused : ∀ replyHash, ⟨.replyUsed request.approvalKey replyHash, .ok false⟩ ∈ past →
    (∀ event ∈ past, ∃ id, Undisturbed id event.op) → (request.approvalKey, replyHash) ∉ world.replies
  unraced : ¬LateRace request past

theorem react_replies (world : World) {op : Op} {id : String} (undisturbed : Undisturbed id op) :
    (world.react op).2.replies = world.replies := by
  cases op with
  | consumeExpired key id replyHash => exact undisturbed.elim
  | rememberReply key replyHash => exact undisturbed.elim
  | claimSweep process =>
    simp only [World.react]
    split <;> rfl
  | _ => rfl

theorem step_replies {id : String} (step : World.Step world event after)
    (undisturbed : Undisturbed id event.op) :
    after.replies = world.replies := by
  cases step with
  | answered later => exact react_replies (world.drift _) undisturbed
  | raised later => rfl
  | raisedAfterConsume later => rfl

/-- A late approval that passed its checks still finds its hold and its reply. -/
theorem Alone.late_succeeds (alone : Alone request world past) {late : PendingRequest} {replyHash : String}
    (evidence : LateEvidence request past late replyHash)
    (step : World.Step world ⟨.consumeExpired request.approvalKey late.pendingId replyHash,
      .ok false⟩ after) : False := by
  obtain ⟨ambient, later, answer, -⟩ := step.answer
  obtain ⟨row, member, named, expires, open_⟩ := alone.held late evidence.found evidence.undisturbed
  obtain ⟨now, read, expired⟩ := evidence.expired
  have unused :=
    alone.unused replyHash evidence.unused fun event member =>
      ⟨_, evidence.undisturbed event member⟩
  have selected : Approvals.ExpiredAs late.pendingId ambient.clock row := by
    refine ⟨named, open_, ?_⟩
    rw [expires]
    exact expired.trans ((alone.clock now read).trans later)
  have failed : (Approvals.consumeExpired request.approvalKey late.pendingId replyHash ambient.clock world.holds
      world.replies).1 = false := Except.ok.inj answer
  cases (Approvals.consumeExpired_succeeds unused member selected).symm.trans failed

theorem Alone.step (alone : Alone request world past) (step : World.Step world event after) :
    Alone request after (past ++ [event]) where
  held late found undisturbed := by
    obtain before | last := List.mem_append.mp found
    · obtain ⟨row, member, named, expires, open_⟩ :=
        alone.held late before fun event member => undisturbed event (List.mem_append_left _ member)
      obtain ⟨later, present, next, stays⟩ :=
        step_undisturbed step member open_ (named ▸ undisturbed event (by simp))
      exact ⟨later, present, next.pendingId.trans named, next.expiresAt.trans expires, stays⟩
    · obtain rfl := List.mem_singleton.mp last
      obtain ⟨ambient, _, answer, rfl⟩ := step.answer
      obtain ⟨member, open_⟩ := latestHold_open (Except.ok.inj answer)
      exact ⟨late, member, rfl, rfl, open_⟩
  clock now read := by
    obtain before | last := List.mem_append.mp read
    · exact (alone.clock now before).trans step.clock_le
    · obtain rfl := List.mem_singleton.mp last
      obtain ⟨ambient, _, answer, rfl⟩ := step.answer
      exact (Except.ok.inj answer).ge
  unused replyHash answered undisturbed := by
    obtain ⟨id, quiet⟩ := undisturbed event (by simp)
    rw [step_replies step quiet]
    obtain before | last := List.mem_append.mp answered
    · exact alone.unused replyHash before fun event member =>
        undisturbed event (List.mem_append_left _ member)
    · obtain rfl := List.mem_singleton.mp last
      obtain ⟨ambient, _, answer, _⟩ := step.answer
      exact of_decide_eq_false (Except.ok.inj answer)
  unraced := by
    rintro ⟨earlier, late, replyHash, evidence, rest, same⟩
    obtain rfl | ⟨rest, last, rfl⟩ := List.eq_nil_or_concat' rest
    -- the last event itself would be the failed late approval
    · obtain ⟨rfl, final⟩ := List.append_inj' same rfl
      obtain rfl := List.singleton_inj.mp final
      exact alone.late_succeeds evidence step
    · rw [← List.cons_append, ← List.append_assoc] at same
      obtain ⟨rfl, -⟩ := List.append_inj' same rfl
      exact alone.unraced ⟨earlier, late, replyHash, evidence, rest, rfl⟩

end sole

variable {analysis : Analysis} {cfg : SpendGuardConfig} {request : Request} {world : World}
  {pool : GuardPool Unit}

theorem reaches_alone (reached : Pool.Reaches (fun _ =>
    World.Step) (single analysis cfg request world) pool) :
    Alone request pool.world (pool.log.map Prod.snd) := by
  refine reached.invariant (fun world log => Alone request world (log.map Prod.snd)) ?_ ?_
  · refine ⟨by simp [single, evaluations, Pool.init], by simp [single, evaluations, Pool.init],
      by simp [single, evaluations, Pool.init], ?_⟩
    rintro ⟨earlier, late, replyHash, _, rest, same⟩
    simp [single, evaluations, Pool.init] at same
  · intro world after log thread event alone step
    rw [List.map_append]
    exact alone.step step

theorem other_grants_kept (reached : Pool.Reaches (fun _ =>
    World.Step) (single analysis cfg request world) pool)
    (key : ScopeKey) (other : key ≠ request.approvalKey) : pool.world.grants key = world.grants key := by
  refine reached.invariant_of_contract (fun after _ => after.grants key = world.grants key)
    (fun _ => evaluate_keeps analysis cfg request) rfl ?_
  intro before after log thread event kept allowed step
  rw [← kept]
  obtain ⟨_, same⟩ | ⟨named, tip, risk, rfl, same⟩ | ⟨named, rfl, same⟩
      | ⟨named, risk, rfl, same⟩ :=
    step.grants_cases
  · rw [same]
  · have elsewhere : key ≠ named := fun own => other (own.trans allowed.1)
    rw [same, Approvals.create]
    split
    · exact Function.update_of_ne elsewhere _ _
    · rfl
  · have elsewhere : key ≠ named := fun own => other (own.trans allowed)
    rw [same]
    exact Function.update_of_ne elsewhere _ _
  · have elsewhere : key ≠ named := fun own => other (own.trans allowed.1)
    rw [same]
    simp only [Approvals.redeem, Approvals.revoke]
    split
    · rfl
    · split <;> exact Function.update_of_ne elsewhere _ _

/-- The grant in the store does not cover the request, at some time of the call. -/
def Outgrown (analysis : Analysis) (request : Request) (world : World) : Prop :=
  ∃ grant est now, world.grants request.approvalKey = some grant ∧
    analysis.estimateAnchored (forwardBody analysis request) request.model request.sessionId = .ok est ∧
    world.ambient.clock ≤ now ∧ ¬grant.Covers est now

/-- The caller's own grant so far, as long as it was neither made nor charged. -/
structure Own (analysis : Analysis) (request : Request) (world after : World)
    (past : List GuardEvent) : Prop where
  clock : world.ambient.clock ≤ after.ambient.clock
  grant : (∀ tip risk reply, ⟨.create request.approvalKey tip risk, reply⟩ ∉ past) →
    (∀ risk, ⟨.redeem request.approvalKey risk, .ok true⟩ ∉ past) →
    after.grants request.approvalKey = world.grants request.approvalKey ∨
    after.grants request.approvalKey = none ∧
      (⟨.revoke request.approvalKey, .ok ()⟩ ∈ past ∨ Outgrown analysis request world)

theorem Own.step {before after : World} {past : List GuardEvent} {event : GuardEvent}
    (own : Own analysis request world before past) (allowed : Allowed analysis request event.op)
    (step : World.Step before event after) : Own analysis request world after (past ++ [event]) where
  clock := own.clock.trans step.clock_le
  grant uncreated uncharged := by
    have earlier :=
      own.grant (fun tip risk reply member =>
        uncreated tip risk reply (List.mem_append_left _ member))
      (fun risk member => uncharged risk (List.mem_append_left _ member))
    have later : before.grants request.approvalKey = world.grants request.approvalKey ∨
        before.grants request.approvalKey = none ∧
          (⟨.revoke request.approvalKey, .ok ()⟩ ∈ past ++ [event] ∨ Outgrown analysis request world) :=
      earlier.imp_right fun gone => ⟨gone.1, gone.2.imp_left (List.mem_append_left _)⟩
    obtain ⟨_, same⟩ | ⟨named, tip, risk, rfl, _⟩ | ⟨named, rfl, same⟩
        | ⟨named, risk, asked, same⟩ :=
      step.grants_cases
    · rwa [same]
    · obtain ⟨rfl, -⟩ := allowed
      exact absurd (List.mem_append_right _ (List.mem_singleton_self _)) (uncreated tip risk (.ok ()))
    · obtain rfl : named = request.approvalKey := allowed
      exact .inr ⟨by rw [same]; exact Function.update_self _ _ _, .inl (by simp)⟩
    · have permitted := asked ▸ allowed
      obtain ⟨rfl, estimated⟩ := permitted
      cases stored : before.grants request.approvalKey with
      | none =>
        simp only [Approvals.redeem, stored] at same
        rwa [same]
      | some grant =>
        simp only [Approvals.redeem, stored] at same asked
        split at same
        next covers =>
          rw [if_pos covers] at asked
          exact absurd (List.mem_append_right _ (by simp [asked])) (uncharged risk)
        next uncovered =>
          refine .inr ⟨by rw [same]; exact Function.update_self _ _ _, ?_⟩
          obtain unchanged | ⟨gone, _⟩ := later
          · exact .inr ⟨grant, risk, after.ambient.clock, unchanged ▸ stored, estimated,
              own.clock.trans step.clock_le, uncovered⟩
          · rw [gone] at stored
            cases stored

theorem reaches_own (reached : Pool.Reaches (fun _ => World.Step) (single analysis cfg request world) pool) :
    Own analysis request world pool.world (pool.log.map Prod.snd) := by
  refine reached.invariant_of_contract (fun after log => Own analysis request world after (log.map Prod.snd))
    (fun _ => evaluate_keeps analysis cfg request) ⟨le_rfl, fun _ _ => .inl rfl⟩ ?_
  intro before after log thread event own allowed step
  rw [List.map_append]
  exact own.step allowed step

/-- An evaluation that sends nothing spends from no grant: every other scope's
grant stays as it is, and unless the outcome is a mere estimate the caller's own
grant stays too, or is gone because the call was a cancellation or because the
grant did not cover the request. -/
theorem unsent_spends_nothing (analysis : Analysis) (cfg : SpendGuardConfig) (request : Request)
    (world : World)
    {pool : GuardPool Unit}
    (reached : Pool.Reaches (fun _ => World.Step) (single analysis cfg request world) pool)
    {outcome : GuardOutcome} (finished : pool.threads () = .done (.ok outcome))
    (unsent : outcome.kind.sends = false) :
    (∀ key, key ≠ request.approvalKey → pool.world.grants key = world.grants key) ∧
    (outcome.kind ≠ .estimate →
      pool.world.grants request.approvalKey = world.grants request.approvalKey ∨
      pool.world.grants request.approvalKey = none ∧ (outcome.kind = .cancel ∨ Outgrown analysis request world)) := by
  refine ⟨other_grants_kept reached, fun charged => ?_⟩
  have accounted := reached.result (fun _ => evaluate_keeps analysis cfg request) finished
  rw [Pool.history_unit] at accounted
  have unspent := accounted.unspent unsent
  have own := (reaches_own reached).grant (fun tip risk reply => unspent.uncreated _ tip risk reply)
    (fun risk paid => (reaches_alone reached).unraced (unspent.unredeemed charged _ risk paid))
  refine own.imp_right fun gone => ⟨gone.1, gone.2.imp_left fun revoked => ?_⟩
  by_contra kind
  exact unspent.unrevoked kind _ _ revoked

/-! Three calls that send nothing and find a grant of their scope: a refusal of
the pending hold, a request beyond the allowance and a request for an estimate. -/

def scopedHold : PendingRequest :=
  { pendingId := "tpg_1", sessionId := "s", createdAt := 0, expiresAt := seconds 600, requestHash := "held", provider := ""
    model := "m", projectedTokens := 190000, projectedCostUsd := 2, rawRequestBlob := [1],
        rawRequestHeaders :=
      []
    targetUrl := "", status := .pending, projectedInputTokens := some 190000, blockResponse := none }

def grantedWorld (holds : Table) (remaining : ℚ) : World :=
  { ambient := { clock := 0, usage := fun _ _ => none, cached := fun _ _ _ => none, sessionCost := fun _ _ => 0
                 pendingId := "tpg_2", ticket := "adm_1" }
    holds, grants := Function.update (fun _ => none) (scopeKey "s" "m" []) (some ⟨none, none, some remaining⟩)
    replies := [], inflight := fun _ => [], lastSweep := fun _ => 0 }

def plainRequest : Request := { body := [2], model := "m", sessionId := "s", headers := [] }

def reading (intent : Intent) (tip : Option TIPDirective) : Analysis :=
  { parseAndStripTipHeader := fun body => .ok (tip.map fun tip => (tip, body)), parseIntent := fun _ => intent
    hasHumanText := fun _ => true, approvalFingerprint := fun _ => "reply", hashRequest := fun _ _ => "fresh"
    estimateAnchored := fun _ model _ => .ok ⟨model, 0, 190000, 190000, 0, 2, 0⟩
    getModelMaxContext := fun _ => .ok (some 200000) }

def alone (intent : Intent) (tip : Option TIPDirective) (world : World) : GuardPool Unit :=
  Pool.follow World.turn (List.replicate 10 ((), 1)) (single (reading intent tip) {} plainRequest world)

theorem alone_reaches (intent : Intent) (tip : Option TIPDirective) (world : World) :
    Pool.Reaches (fun _ => World.Step) (single (reading intent tip) {} plainRequest world)
    (alone intent tip world) :=
  Pool.follow_reaches (fun _ => World.turn_step) _ _

theorem over_limit_blocked : ∃ outcome,
    (alone .ambiguous none (grantedWorld .empty 1)).threads () = .done (.ok outcome) ∧
      outcome.kind = .block :=
  ⟨_, by with_unfolding_all rfl, by with_unfolding_all rfl⟩

theorem unsent_spends_nothing_over_limit :
    (alone .ambiguous none (grantedWorld .empty 1)).world.grants (scopeKey "s" "m" []) = none ∧
    Outgrown (reading .ambiguous none) plainRequest (grantedWorld .empty 1) := by
  obtain ⟨outcome, finished, kind⟩ := over_limit_blocked
  have dropped : (alone .ambiguous none (grantedWorld .empty 1)).world.grants (scopeKey "s" "m" []) = none := by
    decide +kernel
  have spent := (unsent_spends_nothing (reading .ambiguous none) {} plainRequest (grantedWorld .empty 1)
    (alone_reaches _ _ _) finished (by rw [kind]; rfl)).2 (by rw [kind]; nofun)
  obtain kept | ⟨_, cancelled | outgrown⟩ := spent
  · exact absurd (dropped.symm.trans kept) (by decide +kernel)
  · rw [kind] at cancelled
    cases cancelled
  · exact ⟨dropped, outgrown⟩

def LeavesGrants (kind : OutcomeKind) : Prop :=
  ∀ (analysis : Analysis) (cfg : SpendGuardConfig) (request : Request) (world : World) (pool : GuardPool Unit)
    (outcome : GuardOutcome), Pool.Reaches (fun _ => World.Step) (single analysis cfg request world) pool →
    pool.threads () = .done (.ok outcome) → outcome.kind = kind → ∀ key,
      pool.world.grants key = world.grants key

theorem unsent_changes_own_grant :
    ¬LeavesGrants .cancel ∧ ¬LeavesGrants .block ∧ ¬LeavesGrants .estimate := by
  refine ⟨fun leaves => ?_, fun leaves => ?_, fun leaves => ?_⟩
  · have same := leaves _ {} plainRequest _ _ (cancelledOutcome scopedHold)
      (alone_reaches .negative none (grantedWorld ⟨[scopedHold], by simp⟩ 5)) (by with_unfolding_all rfl) rfl
      (scopeKey "s" "m" [])
    exact absurd same (by decide +kernel)
  · obtain ⟨outcome, finished, kind⟩ := over_limit_blocked
    have same :=
      leaves _ {} plainRequest _ _ outcome (alone_reaches _ _ _) finished kind (scopeKey "s" "m" [])
    exact absurd same (by decide +kernel)
  · have estimated : ∃ outcome,
      (alone .ambiguous (some { estimateOnly := true }) (grantedWorld .empty 5)).threads () =
        .done (.ok outcome) ∧ outcome.kind = .estimate :=
          ⟨_, by with_unfolding_all rfl, by with_unfolding_all rfl⟩
    obtain ⟨outcome, finished, kind⟩ := estimated
    have same :=
      leaves _ {} plainRequest _ _ outcome (alone_reaches _ _ _) finished kind (scopeKey "s" "m" [])
    exact absurd same (by decide +kernel)

end TokenPak.SpendGuard.GrantFrame
