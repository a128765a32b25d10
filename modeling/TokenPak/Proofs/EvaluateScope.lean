import TokenPak.Proofs.EvaluateContract

/-! The rows of the hold table that an evaluation may touch, for every answer its
operations may get: rows it looked up in its own session or stored itself. A hold
is consumed only by an approving request of its scope that saw it unexpired. -/

namespace TokenPak.SpendGuard.EvaluateScope
open Library RollingCaps EvaluateContract

section contract
variable (analysis : Analysis) (request : Request)

def directive : Option TIPDirective := (directiveOf analysis request.body).map Prod.fst

/-- The text says yes, or the directive authorizes and the text does not refuse. -/
def Approving : Prop :=
  approves (directive analysis request) (analysis.parseIntent (forwardBody analysis request)) = true

def Found (past : List GuardEvent) (hold : PendingRequest) : Prop :=
  ∃ headers, ⟨.latestHold request.sessionId request.model headers, .ok (some hold)⟩ ∈ past

/-- The hold of the caller's own scope, not yet expired when the call read the clock. -/
def FoundLive (past : List GuardEvent) (hold : PendingRequest) : Prop :=
  ⟨.latestHold request.sessionId request.model request.headers, .ok (some hold)⟩ ∈ past ∧
    ∃ now, ⟨.now, .ok now⟩ ∈ past ∧ now < hold.expiresAt

def Scoped (past : List GuardEvent) : Op → Prop
  | .discardExpired sessionId _ => sessionId = request.sessionId
  | .discard pendingId | .consumeExpired _ pendingId _ =>
      ∃ hold, Found request past hold ∧ hold.pendingId = pendingId
  | .consume pendingId => ∃ hold, FoundLive request past hold ∧ hold.pendingId = pendingId
  | .store draft =>
    draft.sessionId = request.sessionId ∧ draft.model = request.model ∧ draft.headers = request.headers
  | .rememberBlockResponse pendingId _ => ∃ draft row, ⟨.store draft, .ok row⟩ ∈ past ∧
      draft.sessionId = request.sessionId ∧ row.pendingId = pendingId
  | _ => True

def Post : Except Fault GuardOutcome → Prop
  | .ok outcome => outcome.kind = .replay → Approving analysis request
  | .error _ => True

def Stays (past : List GuardEvent) (stage : Guard GuardOutcome) : Prop :=
  Program.Ensures (Scoped request) (fun _ => Post analysis request) past stage

/-- The holds that the request handed on refers to were found by the call. -/
structure Aimed (past : List GuardEvent) (standing : Standing) : Prop where
  replay : ∀ hold ∈ standing.scopeReplay, FoundLive request past hold ∧ Approving analysis request
  late : ∀ hold ∈ standing.latePending, Found request past hold

end contract

variable {analysis : Analysis} {cfg : SpendGuardConfig} {request : Request} {past : List GuardEvent}
  {standing : Standing}
  {est : RiskEstimate} {ticket : Option String} {decision : PreflightDecision}

variable {hold : PendingRequest}

theorem Found.extend (found : Found request past hold) (tail : List GuardEvent) :
    Found request (past ++ tail) hold := by
  obtain ⟨headers, looked⟩ := found
  exact ⟨headers, List.mem_append_left _ looked⟩

theorem FoundLive.extend (found : FoundLive request past hold) (tail : List GuardEvent) :
    FoundLive request (past ++ tail) hold := by
  obtain ⟨looked, now, read, live⟩ := found
  exact ⟨List.mem_append_left _ looked, now, List.mem_append_left _ read, live⟩

theorem Aimed.extend (aimed : Aimed analysis request past standing) (tail : List GuardEvent) :
    Aimed analysis request (past ++ tail) standing where
  replay hold held := ⟨(aimed.replay hold held).1.extend tail, (aimed.replay hold held).2⟩
  late hold held := (aimed.late hold held).extend tail

theorem stays_pure {outcome : GuardOutcome} (other : outcome.kind ≠ .replay) :
    Stays analysis request past (pure outcome) := fun replayed => absurd replayed other

theorem stays_call (op : Op) {next : Answer op → Guard GuardOutcome} (scope : Scoped request past op)
    (rest : ∀ answer, Stays analysis request (past ++ [⟨op, .ok answer⟩]) (next answer)) :
    Stays analysis request past (call op >>= next) :=
  (ensures_perform op next).mpr ⟨scope, rest, fun _ => trivial⟩

theorem stays_tryCall (op : Op) {next : Reply op → Guard GuardOutcome} (scope : Scoped request past op)
    (rest : ∀ reply, Stays analysis request (past ++ [⟨op, reply⟩]) (next reply)) :
    Stays analysis request past (tryCall op >>= next) :=
  (ensures_attempt op next).mpr ⟨scope, rest⟩

theorem stays_cancelAdmission {next : Guard GuardOutcome}
    (rest : ∀ tail, Stays analysis request (past ++ tail) next) :
    Stays analysis request past (do cancelAdmission request ticket; next) := by
  cases ticket with
  | none =>
    have unchanged := rest []
    rw [List.append_nil] at unchanged
    exact unchanged
  | some ticket => exact ⟨trivial, fun reply => rest _⟩

theorem stays_recordGrant {tip : Option TIPDirective} {outcome : GuardOutcome}
    (allowed : outcome.kind = .replay → Approving analysis request) :
    Stays analysis request past (do recordGrant request tip est; pure outcome) := by
  cases tip with
  | none => exact allowed
  | some directive =>
    simp only [recordGrant]
    split
    · exact allowed
    · exact stays_call (.create request.approvalKey directive est) trivial fun _ => allowed

theorem stays_send (aimed : Aimed analysis request past standing) :
    Stays analysis request past (send request standing est ticket decision) := by
  unfold send
  cases held : standing.scopeReplay with
  | none =>
    apply stays_recordGrant
    intro replayed
    cases changed : standing.modified <;> simp [changed] at replayed
  | some hold =>
    obtain ⟨found, approving⟩ := aimed.replay hold held
    apply stays_call (.consume hold.pendingId) ⟨hold, found, rfl⟩
    intro answer
    cases answer with
    | none => exact stays_cancelAdmission fun tail => stays_pure (by simp [heldResponse])
    | some consumed => exact stays_recordGrant fun _ => approving

theorem stays_release (aimed : Aimed analysis request past standing) :
    Stays analysis request past (release request standing est ticket decision) := by
  unfold release
  cases expired : standing.latePending with
  | none => exact stays_send aimed
  | some late =>
    apply stays_call (.consumeExpired request.approvalKey late.pendingId standing.lateReplyHash)
      ⟨late, aimed.late late expired, rfl⟩
    intro answer
    cases answer with
    | true => exact stays_send (aimed.extend _)
    | false => exact stays_cancelAdmission fun tail => stays_pure (by simp [heldResponse])

theorem stays_holdRequest :
    Stays analysis request past (holdRequest analysis cfg request standing est decision) := by
  refine stays_tryCall (.store _) ?_ fun reply => ?_
  · exact ⟨rfl, rfl, rfl⟩
  cases reply with
  | error fault => exact stays_pure (by simp)
  | ok pending =>
    apply stays_call (.rememberBlockResponse pending.pendingId _)
    · exact ⟨_, pending, List.mem_append_right _ (List.mem_singleton_self _), rfl, rfl⟩
    · intro answer
      exact stays_pure (by simp)

theorem stays_refuse :
    Stays analysis request past (refuse analysis cfg request standing est ticket decision) := by
  apply stays_cancelAdmission
  intro tail
  split
  · exact stays_pure (by simp)
  · cases standing.scopeReplay with
    | some hold => exact stays_pure (by simp [heldResponse])
    | none =>
      dsimp only
      split
      · exact stays_pure (by simp)
      · exact stays_holdRequest

theorem stays_conclude (aimed : Aimed analysis request past standing) :
    Stays analysis request past (conclude analysis cfg request standing est ticket decision) := by
  unfold conclude
  split
  · exact stays_cancelAdmission fun tail => stays_pure (by simp)
  · cases decision.decision with
    | allow | warn => exact stays_release aimed
    | hardBlock => exact stays_cancelAdmission fun tail => stays_pure (by simp)
    | block => exact stays_refuse

theorem stays_weigh {running : ℚ} (aimed : Aimed analysis request past standing) :
    Stays analysis request past (weigh analysis cfg request standing est ticket running) := by
  unfold weigh
  dsimp only
  split
  · exact stays_conclude aimed
  split
  · split
    · apply stays_call (.redeem _ _) trivial
      intro answer
      cases answer with
      | true => exact stays_conclude (aimed.extend _)
      | false => exact stays_conclude (aimed.extend _)
    · exact stays_conclude aimed
  · exact stays_conclude aimed

theorem stays_judge (aimed : Aimed analysis request past standing) :
    Stays analysis request past (judge analysis cfg request standing est ticket) := by
  rw [judge_eq]
  unfold sessionRunning
  split
  · refine ⟨trivial, fun reply => ?_⟩
    cases reply with
    | ok cost => exact stays_weigh (aimed.extend _)
    | error fault => exact stays_weigh (aimed.extend _)
  · exact stays_weigh aimed

theorem stays_askCaps (aimed : Aimed analysis request past standing) :
    Stays analysis request past (askCaps analysis cfg request standing est) := by
  unfold askCaps
  split
  · apply stays_tryCall (.checkRollingCapsAndAdmit _ _) trivial
    intro reply
    match reply with
    | .error _ => exact stays_judge (aimed.extend _)
    | .ok (some breach, _) => exact stays_pure (by simp)
    | .ok (none, ticket) => exact stays_judge (aimed.extend _)
  · exact stays_judge aimed

theorem stays_admitStage (aimed : Aimed analysis request past standing) :
    Stays analysis request past (admitStage analysis cfg request standing est) := by
  rw [admitStage_eq]
  split
  · apply stays_tryCall (.recordSessionAgent _ _) trivial
    intro reply
    cases reply with
    | error _ => exact stays_judge (aimed.extend _)
    | ok _ => exact stays_askCaps (aimed.extend _)
  · exact stays_askCaps aimed

theorem stays_estimateStage (aimed : Aimed analysis request past standing) :
    Stays analysis request past (estimateStage analysis cfg request standing) := by
  unfold estimateStage
  split
  next => exact stays_pure (by simp [failClosedOutcome])
  next est _ =>
    split
    next => exact stays_admitStage aimed
    next late expired =>
      split
      next => exact trivial
      next =>
        split
        · exact stays_admitStage ⟨aimed.replay, aimed.late⟩
        · apply stays_call (.rememberReply _ _) trivial
          intro answer
          have later := aimed.extend [⟨.rememberReply request.approvalKey standing.lateReplyHash, .ok answer⟩]
          exact stays_admitStage ⟨later.replay, later.late⟩

theorem stays_antiLoop (aimed : Aimed analysis request past standing) :
    Stays analysis request past (antiLoop analysis cfg request standing) := by
  apply stays_call (.recentBlockByHash _ _ _) trivial
  intro recent
  cases recent with
  | none => exact stays_estimateStage (aimed.extend _)
  | some recent =>
    dsimp only
    split
    · exact stays_estimateStage (aimed.extend _)
    · apply stays_call .now trivial
      intro now
      split
      · exact stays_pure (by simp)
      · exact stays_estimateStage ((aimed.extend _).extend _)

theorem stays_supersede {intent : Intent} (found : Found request past hold)
    (unheld : standing.scopeReplay = none) (timely : standing.latePending = none) :
    Stays analysis request past (supersede analysis cfg request standing hold intent) := by
  apply stays_call (.discard hold.pendingId) ⟨hold, found, rfl⟩
  intro changed
  split
  · apply stays_call (.revoke _) trivial
    intro answer
    exact stays_pure (by simp [cancelledOutcome])
  · exact stays_antiLoop ⟨by simp [unheld], by simp [timely]⟩

theorem stays_resolvePending {intent : Intent} (found : Found request past hold)
    (unapproved : approves standing.tip intent = false) : Stays analysis request past (do
      let outcome ← resolvePending hold intent standing.tip
      if outcome.kind = .cancel then call (.revoke request.approvalKey)
      pure outcome) := by
  have authorized : ¬(standing.tip.any (fun tip => tip.allowScope.isSome || tip.bypass) = true ∧
      intent ≠ .negative) := by
    rintro ⟨directed, unrefused⟩
    simp [approves, directed, unrefused] at unapproved
  unfold resolvePending
  dsimp only
  rw [if_neg authorized]
  cases intent with
  | positive => simp [approves] at unapproved
  | ambiguous => exact stays_pure (by simp)
  | negative =>
    refine ⟨⟨hold, found, rfl⟩, fun reply => ?_⟩
    cases reply with
    | error fault => exact trivial
    | ok changed =>
      apply stays_call (.revoke request.approvalKey) trivial
      intro answer
      exact stays_pure (by simp [cancelledOutcome])

theorem stays_resolveHold (fresh : standing.forwardBody = forwardBody analysis request)
    (directed : standing.tip = directive analysis request) (unheld : standing.scopeReplay = none)
    (timely : standing.latePending = none) (found : Found request past hold)
    (own : analysis.parseIntent standing.forwardBody ≠ .negative →
      ⟨.latestHold request.sessionId request.model request.headers, .ok (some hold)⟩ ∈ past) :
    Stays analysis request past (resolveHold analysis cfg request standing hold) := by
  unfold resolveHold
  dsimp only
  split
  · exact stays_pure (by simp [heldResponse])
  apply stays_call .now trivial
  intro now
  split
  next approving =>
    have yes : Approving analysis request := by rwa [Approving, ← fresh, ← directed]
    have seen : ⟨.latestHold request.sessionId request.model request.headers, .ok (some hold)⟩ ∈ past := by
      apply own
      intro negative
      simp [approves, negative] at approving
    apply stays_call (.replyUsed _ _) trivial
    intro used
    split
    · split
      · exact stays_supersede ((found.extend _).extend _) unheld timely
      · exact stays_pure (by simp [heldResponse])
    · split
      · refine stays_antiLoop ⟨by simp [unheld], fun late same => ?_⟩
        rw [← Option.mem_some_iff.mp same]
        exact (found.extend _).extend _
      next live =>
        refine stays_antiLoop ⟨fun other same => ?_, by simp [timely]⟩
        rw [← Option.mem_some_iff.mp same]
        have later : now < hold.expiresAt := by simpa using live
        exact ⟨⟨by simp [seen], now, by simp, later⟩, yes⟩
  next refused =>
    split
    · exact stays_supersede (found.extend _) unheld timely
    · exact stays_resolvePending (found.extend _) (Bool.eq_false_iff.mpr refused)

theorem stays_pendingCheck (fresh : standing.forwardBody = forwardBody analysis request)
    (directed : standing.tip = directive analysis request) (unheld : standing.scopeReplay = none)
    (timely : standing.latePending = none) :
    Stays analysis request [] (pendingCheck analysis cfg request standing) := by
  have resolved (past : List GuardEvent) (existing : Option PendingRequest)
      (found : ∀ hold ∈ existing, Found request past hold)
      (own : ∀ hold ∈ existing, analysis.parseIntent standing.forwardBody ≠ .negative →
        ⟨.latestHold request.sessionId request.model request.headers, .ok (some hold)⟩ ∈ past) :
      Stays analysis request past (do
        call (.discardExpired request.sessionId (existing.elim "" PendingRequest.pendingId))
        resume analysis cfg request standing existing) := by
    apply stays_call (.discardExpired _ _) rfl
    intro _
    apply stays_call .openApprovals trivial
    intro _
    cases existing with
    | none => exact stays_antiLoop ⟨by simp [unheld], by simp [timely]⟩
    | some hold =>
      apply stays_resolveHold fresh directed unheld timely (((found hold rfl).extend _).extend _)
      intro unrefused
      exact List.mem_append_left _ (List.mem_append_left _ (own hold rfl unrefused))
  have looked (past : List GuardEvent) : Stays analysis request past (do
      let existing ← findHold analysis request standing
      call (.discardExpired request.sessionId (existing.elim "" PendingRequest.pendingId))
      resume analysis cfg request standing existing) := by
    unfold findHold
    refine ⟨trivial, fun reply => ?_⟩
    rcases reply with fault | (_ | hold)
    · exact trivial
    rotate_left
    · refine resolved _ (some hold) (fun other same => ⟨request.headers, ?_⟩) (fun other same _ => ?_)
      · rw [← Option.mem_some_iff.mp same]
        simp
      · rw [← Option.mem_some_iff.mp same]
        simp
    · change Stays analysis request _ ((if analysis.parseIntent standing.forwardBody = .negative then
        call (.latestHold request.sessionId request.model []) else pure none) >>= _)
      split
      next negative =>
        apply stays_call (.latestHold request.sessionId request.model []) trivial
        intro existing
        refine resolved _ existing (fun hold same => ⟨[], ?_⟩) (fun hold same unrefused =>
          absurd negative unrefused)
        rw [Option.mem_def.mp same]
        simp
      next => exact resolved _ none (by simp) (by simp)
  unfold pendingCheck maybeExpirePending
  refine ⟨trivial, fun reply => ?_⟩
  rcases reply with fault | (_ | _)
  · exact trivial
  · exact looked _
  · exact ⟨trivial, fun reply => looked _⟩

theorem stays_tipCancel (stripped : Bytes) : Stays analysis request [] (tipCancel request stripped) := by
  have finish (past : List GuardEvent) (existing : Option PendingRequest)
      (found : ∀ hold ∈ existing, Found request past hold) :
      Stays analysis request past (do
        call (.discardExpired request.sessionId (existing.elim "" PendingRequest.pendingId))
        acknowledge stripped existing) := by
    apply stays_call (.discardExpired _ _) rfl
    intro _
    cases existing with
    | none => exact stays_pure (by simp)
    | some hold =>
      apply stays_call (.discard hold.pendingId) ⟨hold, (found hold rfl).extend _, rfl⟩
      intro changed
      exact stays_pure (by simp [cancelledOutcome])
  apply stays_call .openApprovals trivial
  intro _
  apply stays_call (.revoke _) trivial
  intro _
  apply stays_call (.latestHold _ _ _) trivial
  intro inScope
  cases inScope with
  | some hold =>
    refine finish _ (some hold) fun other same => ⟨request.headers, ?_⟩
    rw [← Option.mem_some_iff.mp same]
    simp
  | none =>
    apply stays_call (.latestHold _ _ _) trivial
    intro existing
    refine finish _ existing fun hold same => ⟨[], ?_⟩
    rw [Option.mem_def.mp same]
    simp

/-- Every evaluation stays within its scope, whatever its operations answer. -/
theorem evaluate_stays (analysis : Analysis) (cfg : SpendGuardConfig) (request : Request) :
    Stays analysis request [] (evaluate analysis cfg request) := by
  unfold evaluate
  split
  · exact stays_pure (by simp [GuardOutcome.passthrough])
  split
  next parsed =>
    exact stays_pendingCheck (by simp [forwardBody, parsed]) (by simp [directive, parsed]) rfl rfl
  next tip stripped parsed =>
    split
    · exact stays_tipCancel stripped
    · exact stays_pendingCheck (by simp [forwardBody, parsed]) (by simp [directive, parsed]) rfl rfl

end TokenPak.SpendGuard.EvaluateScope
