import TokenPak.Proofs.PolicyOrder

/-! The contract of one evaluation, for every answer its operations may get. It
says what the recorded events of the call guarantee about the outcome, so that
results about runs need only reason about the stores. -/

namespace TokenPak.SpendGuard.EvaluateContract
open Library RollingCaps Policy

section stages
variable (analysis : Analysis) (cfg : SpendGuardConfig) (request : Request) (standing : Standing)
  (est : RiskEstimate)

/-- The rest of `judge`, once the running cost of the session is known. -/
def weigh (ticket : Option String) (running : ℚ) : Guard GuardOutcome :=
  let decision := verdict analysis cfg request standing est running
  if standing.earlierHoldExpired = true ∧ (Passes decision ∨ decision.requiresApproval = true) then
    conclude analysis cfg request standing est ticket ⟨.block, .earlierHoldExpired, true, none, est⟩
  else if decision.reason = .projectedExceedsContextWindowPercent ∧ request.sessionId ≠ "" then
    let withoutContext := verdictWithoutContext analysis cfg request est running
    if Passes withoutContext then do
      if ← call (.redeem request.approvalKey est) then
        conclude analysis cfg request standing est ticket withoutContext
      else conclude analysis cfg request standing est ticket decision
    else conclude analysis cfg request standing est ticket decision
  else conclude analysis cfg request standing est ticket decision

/-- What `pendingCheck` does with the hold it found. -/
def resume (existing : Option PendingRequest) : Guard GuardOutcome := do
  call .openApprovals
  match existing with
  | none => antiLoop analysis cfg request standing
  | some hold => resolveHold analysis cfg request standing hold

/-- What `tipCancel` does with the hold it found. -/
def acknowledge (forwardBody : Bytes) (existing : Option PendingRequest) : Guard GuardOutcome :=
  match existing with
  | some hold => do
    let _ ← call (.discard hold.pendingId)
    pure (cancelledOutcome hold)
  | none => pure { kind := .forwardModified, body := some forwardBody }

theorem judge_eq (ticket : Option String) : judge analysis cfg request standing est ticket =
    (sessionRunning cfg request >>= weigh analysis cfg request standing est ticket) := rfl

/-- The rest of `admitStage`, once the agent of the session is recorded. -/
def askCaps : Guard GuardOutcome :=
  if cfg.rollingCapsEnabled = true ∧ agentId request.headers ≠ "" then do
    match ← tryCall (.checkRollingCapsAndAdmit request.process (admissionOf cfg request est)) with
    | .error _ => judge analysis cfg request standing est none
    | .ok (some breach, _) =>
      pure { kind := .block, responseBody := some (.rollingCapBlock breach), httpStatus := 402
             decision := some ⟨.block, .rollingCapBreach breach.capDimension, false, none, est⟩
             auditEvent := some .rollingCapBlock }
    | .ok (none, ticket) => judge analysis cfg request standing est ticket
  else judge analysis cfg request standing est none

theorem admitStage_eq : admitStage analysis cfg request standing est =
    if agentId request.headers ≠ "" ∧ request.sessionId ≠ "" then do
      match ← tryCall (.recordSessionAgent request.sessionId (agentId request.headers)) with
      | .error _ => judge analysis cfg request standing est none
      | .ok _ => askCaps analysis cfg request standing est
    else askCaps analysis cfg request standing est := by
  unfold admitStage askCaps
  dsimp only
  split
  · congr 1
    funext recorded
    cases recorded <;> rfl
  · rfl

end stages

section contract
variable (analysis : Analysis) (cfg : SpendGuardConfig) (request : Request)

/-- The request without its directive. -/
def forwardBody : Bytes := (directiveOf analysis request.body).elim request.body Prod.snd

/-- The call asks for a cancellation, by its directive or by its text. -/
def Refuses : Prop :=
  (∃ directive ∈ directiveOf analysis request.body, directive.1.cancel = true) ∨
    analysis.parseIntent (forwardBody analysis request) = .negative

/-- Grants are touched under the caller's own key, and made within the ceiling
that the directive declares. -/
def Allowed : Op → Prop
  | .create key tip risk => key = request.approvalKey ∧ (tip.persistent = true → withinCeiling risk tip)
  | .redeem key risk => key = request.approvalKey ∧
      analysis.estimateAnchored (forwardBody analysis request) request.model request.sessionId = .ok risk
  | .revoke key => key = request.approvalKey
  | _ => True

/-- These bytes have an estimate, and it is below every hard band. -/
def Sendable (body : Bytes) : Prop :=
  ∃ est, analysis.estimateAnchored body request.model request.sessionId = .ok est ∧
    hardBand est cfg (maxContextOf analysis request) = none

/-- The operations that can end a hold or use up the reply to it. -/
def Undisturbed (pendingId : String) : Op → Prop
  | .discard id | .consume id => id ≠ pendingId
  | .discardExpired _ keepId => keepId = pendingId
  | .consumeExpired .. | .rememberReply .. => False
  | _ => True

/-- The hold was found open, seen to be past its expiry and the reply unused;
since then the call has not disturbed either. -/
structure LateEvidence (past : List GuardEvent) (late : PendingRequest) (replyHash : String) : Prop where
  found : ⟨.latestHold request.sessionId request.model request.headers, .ok (some late)⟩ ∈ past
  expired : ∃ now, ⟨.now, .ok now⟩ ∈ past ∧ late.expiresAt ≤ now
  unused : ⟨.replyUsed request.approvalKey replyHash, .ok false⟩ ∈ past
  undisturbed : ∀ event ∈ past, Undisturbed late.pendingId event.op

/-- A late approval that passed every check and then lost its hold or its reply. -/
def LateRace (past : List GuardEvent) : Prop :=
  ∃ earlier late replyHash, LateEvidence request earlier late replyHash ∧ (∃ rest, past =
    earlier ++ ⟨.consumeExpired request.approvalKey late.pendingId replyHash, .ok false⟩ :: rest)

/-- The grants are left alone, up to what the kind of the outcome allows. -/
structure Unspent (past : List GuardEvent) (kind : OutcomeKind) : Prop where
  uncreated : ∀ key tip risk reply, ⟨.create key tip risk, reply⟩ ∉ past
  unrevoked : kind ≠ .cancel → ∀ key reply, ⟨.revoke key, reply⟩ ∉ past
  unredeemed : kind ≠ .estimate → ∀ key risk, ⟨.redeem key risk, .ok true⟩ ∈ past → LateRace request past

/-- What the events of a call say about its outcome. -/
structure Accounted (past : List GuardEvent) (outcome : GuardOutcome) : Prop where
  replayed : outcome.kind = .replay → ∃ hold consumed,
    ⟨.latestHold request.sessionId request.model request.headers, .ok (some hold)⟩ ∈ past ∧
    ⟨.consume hold.pendingId, .ok (some consumed)⟩ ∈ past ∧ outcome.body = some consumed.rawRequestBlob ∧
    outcome.pendingId = some consumed.pendingId ∧ Sendable analysis cfg request hold.rawRequestBlob
  forwarded : cfg.enabled = true → outcome.kind = .forward ∨ outcome.kind = .forwardModified →
    (∃ body, outcome.body = some body ∧ Sendable analysis cfg request body) ∨
    ((∃ directive ∈ directiveOf analysis request.body, directive.1.cancel = true ∧
      outcome.body = some directive.2) ∧
      ∃ rest, past = [⟨.openApprovals, .ok ()⟩, ⟨.revoke request.approvalKey, .ok ()⟩,
        ⟨.latestHold request.sessionId request.model request.headers, .ok none⟩,
        ⟨.latestHold request.sessionId request.model [], .ok none⟩] ++ rest)
  cancelled : outcome.kind = .cancel → Refuses analysis request ∧
    ∃ id changed, outcome.pendingId = some id ∧ ⟨.discard id, .ok changed⟩ ∈ past
  unspent : outcome.kind.sends = false → Unspent request past outcome.kind

def Post (past : List GuardEvent) : Except Fault GuardOutcome → Prop
  | .ok outcome => Accounted analysis cfg request past outcome
  | .error _ => True

def Keeps (past : List GuardEvent) (stage : Guard GuardOutcome) : Prop :=
  Program.Ensures (fun _ => Allowed analysis request) (Post analysis cfg request) past stage

end contract

variable {analysis : Analysis} {cfg : SpendGuardConfig} {request : Request} {past : List GuardEvent}
variable {outcome : GuardOutcome} {ticket : Option String} {tail : List GuardEvent}
variable {hold : PendingRequest} {standing : Standing} {est : RiskEstimate}
variable {decision : PreflightDecision}

theorem keeps_pure (accounted : Accounted analysis cfg request past outcome) :
    Keeps analysis cfg request past (pure outcome) := accounted

theorem keeps_throw (fault : Fault) : Keeps analysis cfg request past (throw fault) := trivial

theorem keeps_call (op : Op) {next : Answer op → Guard GuardOutcome} (allowed : Allowed analysis request op)
    (rest : ∀ answer, Keeps analysis cfg request (past ++ [⟨op, .ok answer⟩]) (next answer)) :
    Keeps analysis cfg request past (call op >>= next) :=
  (ensures_perform op next).mpr ⟨allowed, rest, fun _ => trivial⟩

theorem keeps_tryCall (op : Op) {next : Reply op → Guard GuardOutcome} (allowed : Allowed analysis request op)
    (rest : ∀ reply, Keeps analysis cfg request (past ++ [⟨op, reply⟩]) (next reply)) :
    Keeps analysis cfg request past (tryCall op >>= next) :=
  (ensures_attempt op next).mpr ⟨allowed, rest⟩

/-- Operations that no part of the contract looks at. -/
def Idle : Op → Prop
  | .discard _ | .consume _ | .discardExpired .. | .consumeExpired .. | .rememberReply .. | .create .. | .revoke _
  | .redeem .. => False
  | _ => True

theorem keeps_cancelAdmission {next : Guard GuardOutcome}
    (rest : ∀ tail, (∀ event ∈ tail, Idle event.op) → Keeps analysis cfg request (past ++ tail) next) :
    Keeps analysis cfg request past (do cancelAdmission request ticket; next) := by
  cases ticket with
  | none =>
    have unchanged := rest [] (by simp)
    rw [List.append_nil] at unchanged
    exact unchanged
  | some ticket =>
    refine ⟨trivial, fun reply => rest _ ?_⟩
    intro event member
    rw [List.mem_singleton.mp member]
    trivial

structure Intact (past : List GuardEvent) : Prop where
  uncreated : ∀ key tip risk reply, ⟨.create key tip risk, reply⟩ ∉ past
  unrevoked : ∀ key reply, ⟨.revoke key, reply⟩ ∉ past

def Unpaid (past : List GuardEvent) : Prop := ∀ key risk, ⟨.redeem key risk, .ok true⟩ ∉ past

theorem Intact.extend (intact : Intact past)
    (clear : ∀ event ∈ tail, match event.op with | .create .. => False | .revoke _ => False | _ => True) :
    Intact (past ++ tail) where
  uncreated key tip risk reply member := by
    obtain before | after := List.mem_append.mp member
    · exact intact.uncreated _ _ _ _ before
    · exact clear _ after
  unrevoked key reply member := by
    obtain before | after := List.mem_append.mp member
    · exact intact.unrevoked _ _ before
    · exact clear _ after

theorem Intact.idle (intact : Intact past) (idle : ∀ event ∈ tail, Idle event.op) :
    Intact (past ++ tail) := by
  refine intact.extend fun event member => ?_
  have quiet := idle event member
  cases op : event.op <;> simp_all [Idle]

theorem Unpaid.idle (unpaid : Unpaid past) (idle : ∀ event ∈ tail, Idle event.op) :
    Unpaid (past ++ tail) := by
  intro key risk member
  obtain before | after := List.mem_append.mp member
  · exact unpaid _ _ before
  · exact idle _ after

/-- A refusal: nothing is sent and nothing was cancelled. -/
theorem accounted_refusal (kept : outcome.kind.sends = false)
    (uncancelled : outcome.kind ≠ .cancel) (intact : Intact past)
    (paid : outcome.kind ≠ .estimate → ∀ key risk, ⟨.redeem key risk, .ok true⟩ ∈ past →
      LateRace request past) : Accounted analysis cfg request past outcome where
  replayed kind := by simp [kind, OutcomeKind.sends] at kept
  forwarded _ kind := by obtain kind | kind := kind <;> simp [kind, OutcomeKind.sends] at kept
  cancelled kind := absurd kind uncancelled
  unspent _ := ⟨intact.uncreated, fun _ => intact.unrevoked, paid⟩

theorem accounted_unpaid (kept : outcome.kind.sends = false)
    (uncancelled : outcome.kind ≠ .cancel) (intact : Intact past) (unpaid : Unpaid past) :
    Accounted analysis cfg request past outcome :=
  accounted_refusal kept uncancelled intact fun _ key risk member => absurd member (unpaid key risk)

theorem accounted_forward (kind : outcome.kind = .forward ∨ outcome.kind = .forwardModified)
    {body : Bytes} (sent : outcome.body = some body)
    (sendable : Sendable analysis cfg request body) :
    Accounted analysis cfg request past outcome where
  replayed other := by obtain kind | kind := kind <;> simp [kind] at other
  forwarded _ _ := .inl ⟨body, sent, sendable⟩
  cancelled other := by obtain kind | kind := kind <;> simp [kind] at other
  unspent kept := by obtain kind | kind := kind <;> simp [kind, OutcomeKind.sends] at kept

theorem accounted_replay {consumed : PendingRequest}
    (found : ⟨.latestHold request.sessionId request.model request.headers, .ok (some hold)⟩ ∈ past)
    (taken : ⟨.consume hold.pendingId, .ok (some consumed)⟩ ∈ past)
    (sendable : Sendable analysis cfg request hold.rawRequestBlob) :
    Accounted analysis cfg request past (replayOutcome consumed ticket) where
  replayed _ := ⟨hold, consumed, found, taken, rfl, rfl, sendable⟩
  forwarded _ kind := by simp [replayOutcome] at kind
  cancelled kind := by simp [replayOutcome] at kind
  unspent kept := by simp [replayOutcome, OutcomeKind.sends] at kept

theorem accounted_cancel (changed : Bool) (refuses : Refuses analysis request)
    (discarded : ⟨.discard hold.pendingId, .ok changed⟩ ∈ past)
    (uncreated : ∀ key tip risk reply, ⟨.create key tip risk, reply⟩ ∉ past)
    (unpaid : Unpaid past) : Accounted analysis cfg request past (cancelledOutcome hold) where
  replayed kind := by simp [cancelledOutcome] at kind
  forwarded _ kind := by simp [cancelledOutcome] at kind
  cancelled _ := ⟨refuses, _, _, rfl, discarded⟩
  unspent _ :=
    ⟨uncreated, fun kind => absurd rfl kind, fun _ key risk member =>
      absurd member (unpaid key risk)⟩

/-- What the stages so far established about the request they hand on. -/
structure Sound (analysis : Analysis) (request : Request) (past : List GuardEvent)
    (standing : Standing) : Prop where
  fresh : standing.scopeReplay = none → standing.forwardBody = forwardBody analysis request
  replay : ∀ hold ∈ standing.scopeReplay,
    ⟨.latestHold request.sessionId request.model request.headers, .ok (some hold)⟩ ∈ past ∧
      standing.forwardBody = hold.rawRequestBlob
  late : standing.earlierHoldExpired = false → ∀ hold ∈ standing.latePending,
    LateEvidence request past hold standing.lateReplyHash

theorem LateEvidence.extend {late : PendingRequest} {replyHash : String}
    (evidence : LateEvidence request past late replyHash)
    (undisturbed : ∀ event ∈ tail, Undisturbed late.pendingId event.op) :
    LateEvidence request (past ++ tail) late replyHash where
  found := List.mem_append_left _ evidence.found
  expired := by
    obtain ⟨now, read, expired⟩ := evidence.expired
    exact ⟨now, List.mem_append_left _ read, expired⟩
  unused := List.mem_append_left _ evidence.unused
  undisturbed event member := by
    obtain before | after := List.mem_append.mp member
    · exact evidence.undisturbed event before
    · exact undisturbed event after

theorem Idle.undisturbed {op : Op} (idle : Idle op) (pendingId : String) : Undisturbed pendingId op := by
  cases op <;> trivial

theorem Sound.extend (sound : Sound analysis request past standing)
    (undisturbed : ∀ pendingId, ∀ event ∈ tail, Undisturbed pendingId event.op) :
    Sound analysis request (past ++ tail) standing where
  fresh := sound.fresh
  replay hold member := ⟨List.mem_append_left _ (sound.replay hold member).1, (sound.replay hold member).2⟩
  late live hold member := (sound.late live hold member).extend (undisturbed hold.pendingId)

theorem Sound.idle (sound : Sound analysis request past standing)
    (idle : ∀ event ∈ tail, Idle event.op) : Sound analysis request (past ++ tail) standing :=
  sound.extend fun pendingId event member => (idle event member).undisturbed pendingId

theorem idle_singleton (op : Op) (reply : Reply op) (idle : Idle op) :
    ∀ event ∈ [(⟨op, reply⟩ : GuardEvent)], Idle event.op := by
  intro event member
  rw [List.mem_singleton.mp member]
  exact idle

theorem idle_snoc (op : Op) (reply : Reply op) (before : ∀ event ∈ tail, Idle event.op)
    (idle : Idle op) : ∀ event ∈ tail ++ [(⟨op, reply⟩ : GuardEvent)], Idle event.op := by
  intro event member
  obtain earlier | last := List.mem_append.mp member
  · exact before event earlier
  · exact idle_singleton op reply idle event last

theorem keeps_recordGrant {tip : Option TIPDirective}
    (ceiling : ∀ directive ∈ tip, directive.persistent = true → withinCeiling est directive)
    (accounted : ∀ tail, Accounted analysis cfg request (past ++ tail) outcome) :
    Keeps analysis cfg request past (do recordGrant request tip est; pure outcome) := by
  have unchanged := accounted []
  rw [List.append_nil] at unchanged
  cases tip with
  | none => exact unchanged
  | some directive =>
    simp only [recordGrant]
    split
    · exact unchanged
    · exact keeps_call (.create request.approvalKey directive est) ⟨rfl, ceiling directive rfl⟩
        (fun _ => keeps_pure (accounted _))

theorem keeps_send (replay : ∀ hold ∈ standing.scopeReplay,
      ⟨.latestHold request.sessionId request.model request.headers, .ok (some hold)⟩ ∈ past ∧
        standing.forwardBody = hold.rawRequestBlob)
    (sendable : Sendable analysis cfg request standing.forwardBody)
    (ceiling : ∀ directive ∈ standing.tip, directive.persistent = true → withinCeiling est directive)
    (intact : Intact past) (unpaid : standing.scopeReplay ≠ none → Unpaid past) :
    Keeps analysis cfg request past (send request standing est ticket decision) := by
  unfold send
  cases held : standing.scopeReplay with
  | none =>
    refine keeps_recordGrant ceiling fun tail => accounted_forward ?_ rfl sendable
    cases standing.modified <;> simp
  | some hold =>
    obtain ⟨found, same⟩ := replay hold held
    rw [same] at sendable
    refine keeps_call (.consume hold.pendingId) trivial fun answer => ?_
    cases answer with
    | none =>
      have clear : Intact (past ++ [⟨.consume hold.pendingId, .ok none⟩]) := intact.extend (by simp)
      have unspent : Unpaid (past ++ [⟨.consume hold.pendingId, .ok none⟩]) := by
        intro key risk member
        simpa using unpaid (by simp [held]) key risk (by simpa using member)
      exact keeps_cancelAdmission fun tail idle =>
        keeps_pure (accounted_unpaid rfl nofun (clear.idle idle) (unspent.idle idle))
    | some consumed =>
      exact keeps_recordGrant ceiling fun tail =>
        accounted_replay (by simp [found]) (by simp) sendable

theorem keeps_release (sound : Sound analysis request past standing)
    (live : standing.earlierHoldExpired = false)
    (sendable : Sendable analysis cfg request standing.forwardBody)
    (ceiling : ∀ directive ∈ standing.tip, directive.persistent = true → withinCeiling est directive)
    (intact : Intact past) (unpaid : standing.scopeReplay ≠ none → Unpaid past) :
    Keeps analysis cfg request past (release request standing est ticket decision) := by
  unfold release
  cases expired : standing.latePending with
  | none => exact keeps_send sound.replay sendable ceiling intact unpaid
  | some late =>
    have evidence := sound.late live late expired
    refine keeps_call (.consumeExpired request.approvalKey late.pendingId standing.lateReplyHash) trivial fun answer => ?_
    cases answer with
    | true =>
      refine keeps_send (fun hold member => ?_) sendable ceiling (intact.extend (by simp)) (fun held => ?_)
      · obtain ⟨found, same⟩ := sound.replay hold member
        exact ⟨List.mem_append_left _ found, same⟩
      · intro key risk member
        exact unpaid held key risk (by simpa using member)
    | false =>
      refine keeps_cancelAdmission fun tail idle => keeps_pure (accounted_refusal rfl nofun ?_ ?_)
      · exact Intact.idle (intact.extend (by simp)) idle
      · exact fun _ _ _ _ => ⟨past, late, standing.lateReplyHash, evidence, tail, by simp⟩

theorem keeps_holdRequest (intact : Intact past) (unpaid : Unpaid past) :
    Keeps analysis cfg request past (holdRequest analysis cfg request standing est decision) := by
  refine keeps_tryCall (.store _) trivial fun reply => ?_
  have stored := idle_singleton _ reply trivial
  cases reply with
  | error fault => exact keeps_pure (accounted_unpaid rfl nofun (intact.idle stored) (unpaid.idle stored))
  | ok pending =>
    refine keeps_call (.rememberBlockResponse pending.pendingId _) trivial fun answer => ?_
    exact keeps_pure (accounted_unpaid rfl nofun ((intact.idle stored).idle (idle_singleton _ _ trivial))
      ((unpaid.idle stored).idle (idle_singleton _ _ trivial)))

theorem keeps_refuse (intact : Intact past) (unpaid : Unpaid past) :
    Keeps analysis cfg request past (refuse analysis cfg request standing est ticket decision) := by
  refine keeps_cancelAdmission fun tail idle => ?_
  have clear := intact.idle idle
  have unspent := unpaid.idle idle
  split
  · exact keeps_pure (accounted_unpaid rfl nofun clear unspent)
  · cases standing.scopeReplay with
    | some hold => exact keeps_pure (accounted_unpaid rfl nofun clear unspent)
    | none =>
      dsimp only
      split
      · exact keeps_pure (accounted_unpaid rfl nofun clear unspent)
      · exact keeps_holdRequest clear unspent

theorem keeps_conclude (sound : Sound analysis request past standing)
    (passing : Passes decision → standing.earlierHoldExpired = false ∧
      Sendable analysis cfg request standing.forwardBody ∧
      ∀ directive ∈ standing.tip, directive.persistent = true → withinCeiling est directive)
    (intact : Intact past) (unpaid : Unpaid past ∨ Passes decision ∧ standing.scopeReplay = none) :
    Keeps analysis cfg request past (conclude analysis cfg request standing est ticket decision) := by
  unfold conclude
  split
  · exact keeps_cancelAdmission fun tail idle =>
      keeps_pure (accounted_refusal rfl (fun kind => by cases kind) (intact.idle idle) (fun kind =>
        absurd rfl kind))
  · have released : Passes decision →
        Keeps analysis cfg request past (release request standing est ticket decision) := by
      intro passes
      obtain ⟨live, sendable, ceiling⟩ := passing passes
      refine keeps_release sound live sendable ceiling intact fun held => ?_
      obtain unpaid | ⟨_, none⟩ := unpaid
      · exact unpaid
      · exact absurd none held
    have stopped : ¬Passes decision → Unpaid past :=
      fun fails => unpaid.resolve_right fun paid => fails paid.1
    cases kind : decision.decision with
    | allow => exact released (.inl kind)
    | warn => exact released (.inr kind)
    | hardBlock =>
      have unspent := stopped (by simp [Passes, kind])
      exact keeps_cancelAdmission fun tail idle =>
        keeps_pure (accounted_unpaid rfl (fun kind => by cases kind) (intact.idle idle) (unspent.idle idle))
    | block => exact keeps_refuse intact (stopped (by simp [Passes, kind]))

theorem keeps_sessionRunning {next : ℚ → Guard GuardOutcome}
    (rest : ∀ running tail, (∀ event ∈ tail, Idle event.op) →
      Keeps analysis cfg request (past ++ tail) (next running)) :
    Keeps analysis cfg request past (sessionRunning cfg request >>= next) := by
  unfold sessionRunning
  split
  · refine ⟨trivial, fun reply => ?_⟩
    cases reply with
    | ok cost => exact rest cost _ (idle_singleton _ _ trivial)
    | error fault => exact rest 0 _ (idle_singleton _ _ trivial)
  · have unchanged := rest 0 [] (by simp)
    rw [List.append_nil] at unchanged
    exact unchanged

theorem keeps_judge (sound : Sound analysis request past standing)
    (estimated : analysis.estimateAnchored standing.forwardBody request.model request.sessionId = .ok est)
    (intact : Intact past) (unpaid : Unpaid past) :
    Keeps analysis cfg request past (judge analysis cfg request standing est ticket) := by
  refine keeps_sessionRunning fun running tail idle => ?_
  replace sound := sound.idle idle
  replace intact := intact.idle idle
  replace unpaid := unpaid.idle idle
  generalize past ++ tail = past at sound intact unpaid
  have sendable : hardBand est cfg (maxContextOf analysis request) = none →
      Sendable analysis cfg request standing.forwardBody := fun soft => ⟨est, estimated, soft⟩
  have ceiling {decision : PreflightDecision}
    (same : decision = verdict analysis cfg request standing est running)
      (passes : Passes decision) :
      ∀ directive ∈ standing.tip, directive.persistent = true → withinCeiling est directive := by
    intro directive carried persistent
    have directed : contextScope standing.tip = true := by
      rw [carried]; exact persistent_contextScope persistent
    exact passes_withinCeiling (same ▸ passes) directed directive carried
  dsimp only
  split
  -- the earlier hold expired and the request outgrew it
  · exact keeps_conclude sound (by simp [Passes]) intact (.inl unpaid)
  next grown =>
    have live : Passes (verdict analysis cfg request standing est running) →
        standing.earlierHoldExpired = false :=
      fun passes => by
        cases expired : standing.earlierHoldExpired with
        | false => rfl
        | true => exact absurd ⟨expired, .inl passes⟩ grown
    have asDecided : Keeps analysis cfg request past
        (conclude analysis cfg request standing est ticket (verdict analysis cfg request standing est running)) :=
      keeps_conclude sound
        (fun passes => ⟨live passes, sendable (passes_not_hard passes),
          ceiling rfl passes⟩) intact (.inl unpaid)
    split
    next reason =>
      split
      next passes =>
        have soft := passes_not_hard passes
        obtain ⟨undirected, unapproved, approvable⟩ := contextPercent_unapproved reason.1 soft
        have unheld : standing.scopeReplay = none := by simpa using unapproved
        have alive : standing.earlierHoldExpired = false := by
          cases expired : standing.earlierHoldExpired with
          | false => rfl
          | true => exact absurd ⟨expired, .inr approvable⟩ grown
        have kept (answer : Bool) : Sound analysis request
            (past ++ [⟨.redeem request.approvalKey est, .ok answer⟩]) standing :=
          sound.extend fun pendingId event member => by rw [List.mem_singleton.mp member]; trivial
        refine keeps_call (.redeem request.approvalKey est)
          ⟨rfl, sound.fresh unheld ▸ estimated⟩ fun answer => ?_
        cases answer with
        | true =>
          refine keeps_conclude (kept true) (fun _ => ⟨alive, sendable soft, ?_⟩) (intact.extend (by simp))
            (.inr ⟨passes, unheld⟩)
          intro directive carried persistent
          rw [carried, persistent_contextScope persistent] at undirected
          cases undirected
        | false =>
          refine keeps_conclude (kept false) ?_ (intact.extend (by simp)) (.inl ?_)
          · exact fun passes => ⟨alive, sendable soft, ceiling rfl passes⟩
          · intro key risk member
            exact unpaid key risk (by simpa using member)
      next => exact asDecided
    next => exact asDecided

theorem keeps_askCaps (sound : Sound analysis request past standing)
    (estimated : analysis.estimateAnchored standing.forwardBody request.model request.sessionId = .ok est)
    (intact : Intact past) (unpaid : Unpaid past) :
    Keeps analysis cfg request past (askCaps analysis cfg request standing est) := by
  unfold askCaps
  split
  · refine keeps_tryCall (.checkRollingCapsAndAdmit _ _) trivial fun reply => ?_
    have quiet := idle_singleton (.checkRollingCapsAndAdmit request.process (admissionOf cfg request est)) reply trivial
    match reply with
    | .error _ => exact keeps_judge (sound.idle quiet) estimated (intact.idle quiet) (unpaid.idle quiet)
    | .ok (some breach, _) =>
      exact keeps_pure (accounted_unpaid rfl nofun (intact.idle quiet) (unpaid.idle quiet))
    | .ok (none, ticket) =>
        exact keeps_judge (sound.idle quiet) estimated (intact.idle quiet) (unpaid.idle quiet)
  · exact keeps_judge sound estimated intact unpaid

theorem keeps_admitStage (sound : Sound analysis request past standing)
    (estimated : analysis.estimateAnchored standing.forwardBody request.model request.sessionId = .ok est)
    (intact : Intact past) (unpaid : Unpaid past) :
    Keeps analysis cfg request past (admitStage analysis cfg request standing est) := by
  rw [admitStage_eq]
  split
  · refine keeps_tryCall (.recordSessionAgent _ _) trivial fun reply => ?_
    have quiet :=
      idle_singleton (.recordSessionAgent request.sessionId (agentId request.headers)) reply trivial
    cases reply with
    | error _ => exact keeps_judge (sound.idle quiet) estimated (intact.idle quiet) (unpaid.idle quiet)
    | ok _ => exact keeps_askCaps (sound.idle quiet) estimated (intact.idle quiet) (unpaid.idle quiet)
  · exact keeps_askCaps sound estimated intact unpaid

theorem keeps_estimateStage (sound : Sound analysis request past standing) (intact : Intact past)
    (unpaid : Unpaid past) :
    Keeps analysis cfg request past (estimateStage analysis cfg request standing) := by
  unfold estimateStage
  split
  next => exact keeps_pure (accounted_unpaid rfl nofun intact unpaid)
  next est estimated =>
    split
    next => exact keeps_admitStage sound estimated intact unpaid
    next late expired =>
      split
      next fault _ => exact keeps_throw fault
      next window _ =>
        split
        · exact keeps_admitStage ⟨sound.fresh, sound.replay, sound.late⟩ estimated intact unpaid
        · refine keeps_call (.rememberReply _ _) trivial fun answer => keeps_admitStage ?_ estimated ?_ ?_
          · refine ⟨sound.fresh, fun hold member => ?_, nofun⟩
            exact ⟨List.mem_append_left _ (sound.replay hold member).1, (sound.replay hold member).2⟩
          · exact intact.extend (by simp)
          · intro key risk member
            exact unpaid key risk (by simpa using member)

theorem keeps_antiLoop (sound : Sound analysis request past standing) (intact : Intact past)
    (unpaid : Unpaid past) :
    Keeps analysis cfg request past (antiLoop analysis cfg request standing) := by
  have estimated (tail : List GuardEvent) (idle : ∀ event ∈ tail, Idle event.op) :
      Keeps analysis cfg request (past ++ tail) (estimateStage analysis cfg request standing) :=
    keeps_estimateStage (sound.idle idle) (intact.idle idle) (unpaid.idle idle)
  refine keeps_call (.recentBlockByHash _ _ _) trivial fun recent => ?_
  have first := idle_singleton (.recentBlockByHash (analysis.hashRequest standing.forwardBody request.model)
    (seconds 30) request.sessionId) (.ok recent) trivial
  cases recent with
  | none => exact estimated _ first
  | some recent =>
    dsimp only
    split
    · exact estimated _ first
    · refine keeps_call .now trivial fun now => ?_
      rw [List.append_assoc]
      have both := idle_snoc .now (.ok now) first trivial
      split
      · exact keeps_pure (accounted_unpaid rfl nofun (intact.idle both) (unpaid.idle both))
      · exact estimated _ both

theorem keeps_supersede {intent : Intent}
    (fresh : standing.forwardBody = forwardBody analysis request)
    (unheld : standing.scopeReplay = none) (timely : standing.latePending = none)
    (refuses : intent = .negative → Refuses analysis request) (intact : Intact past)
    (unpaid : Unpaid past) :
    Keeps analysis cfg request past (supersede analysis cfg request standing hold intent) := by
  refine keeps_call (.discard hold.pendingId) trivial fun changed => ?_
  have clear : Intact (past ++ [⟨.discard hold.pendingId, .ok changed⟩]) := intact.extend (by simp)
  have unspent : Unpaid (past ++ [⟨.discard hold.pendingId, .ok changed⟩]) := by
    intro key risk member
    exact unpaid key risk (by simpa using member)
  split
  next negative =>
    refine keeps_call (.revoke request.approvalKey) rfl fun answer => ?_
    refine keeps_pure (accounted_cancel changed (refuses negative) (by simp) ?_ ?_)
    · intro key tip risk reply member
      exact clear.uncreated key tip risk reply (by simpa using member)
    · intro key risk member
      exact unspent key risk (by simpa using member)
  next =>
    refine keeps_antiLoop ⟨fun _ => fresh, ?_, ?_⟩ clear unspent
    · simp [unheld]
    · simp [timely]

theorem keeps_resolvePending {intent : Intent} (unapproved : approves standing.tip intent = false)
    (refuses : intent = .negative → Refuses analysis request) (intact : Intact past)
    (unpaid : Unpaid past) : Keeps analysis cfg request past (do
      let outcome ← resolvePending hold intent standing.tip
      if outcome.kind = .cancel then call (.revoke request.approvalKey)
      pure outcome) := by
  have authorized : ¬(standing.tip.any (fun tip => tip.allowScope.isSome || tip.bypass) = true ∧
      intent ≠ .negative) := by
    simp only [approves, Bool.or_eq_false_iff, Bool.and_eq_false_iff] at unapproved
    rintro ⟨directed, unrefused⟩
    obtain ⟨_, undirected | refused⟩ := unapproved
    · simp [undirected] at directed
    · simp [unrefused] at refused
  unfold resolvePending
  dsimp only
  rw [if_neg authorized]
  cases intent with
  | positive => simp [approves] at unapproved
  | ambiguous => exact keeps_pure (accounted_unpaid rfl nofun intact unpaid)
  | negative =>
    refine ⟨trivial, fun reply => ?_⟩
    obtain fault | changed := reply
    · exact keeps_throw fault
    change Keeps analysis cfg request _ (do call (.revoke request.approvalKey); pure (cancelledOutcome hold))
    refine keeps_call (.revoke request.approvalKey) rfl fun answer => ?_
    refine keeps_pure (accounted_cancel changed (refuses rfl) (by simp) ?_ ?_)
    · intro key tip risk reply member
      exact intact.uncreated key tip risk reply (by simpa using member)
    · intro key risk member
      exact unpaid key risk (by simpa using member)

theorem keeps_resolveHold (fresh : standing.forwardBody = forwardBody analysis request)
    (unheld : standing.scopeReplay = none) (timely : standing.latePending = none)
    (found : analysis.parseIntent standing.forwardBody ≠ .negative →
      ⟨.latestHold request.sessionId request.model request.headers, .ok (some hold)⟩ ∈ past)
    (undisturbed : ∀ event ∈ past, Undisturbed hold.pendingId event.op) (intact : Intact past)
    (unpaid : Unpaid past) :
    Keeps analysis cfg request past (resolveHold analysis cfg request standing hold) := by
  have refuses : analysis.parseIntent standing.forwardBody = .negative → Refuses analysis request :=
    fun negative => .inr (fresh ▸ negative)
  unfold resolveHold
  dsimp only
  split
  · exact keeps_pure (accounted_unpaid rfl nofun intact unpaid)
  · refine keeps_call .now trivial fun now => ?_
    have read := idle_singleton .now (.ok now) trivial
    split
    next approving =>
      have seen : ⟨.latestHold request.sessionId request.model request.headers, .ok (some hold)⟩ ∈ past := by
        refine found fun negative => ?_
        simp [approves, negative] at approving
      refine keeps_call (.replyUsed _ _) trivial fun used => ?_
      rw [List.append_assoc]
      have both := idle_snoc (.replyUsed request.approvalKey (analysis.approvalFingerprint standing.forwardBody))
        (.ok used) read trivial
      have clear := intact.idle both
      have unspent := unpaid.idle both
      split
      · split
        · exact keeps_supersede fresh unheld timely refuses clear unspent
        · exact keeps_pure (accounted_unpaid rfl nofun clear unspent)
      next unused =>
        split
        next expired =>
          refine keeps_antiLoop ⟨fun _ => fresh, by simp [unheld], fun _ late same => ?_⟩ clear unspent
          rw [Option.mem_some_iff.mp same |>.symm]
          refine ⟨by simp [seen], ⟨now, by simp, of_decide_eq_true expired⟩, ?_, fun event member => ?_⟩
          · simp [Bool.eq_false_iff.mpr unused]
          · obtain before | after := List.mem_append.mp member
            · exact undisturbed event before
            · exact (both event after).undisturbed _
        next =>
          refine keeps_antiLoop ⟨nofun, fun other same => ?_, by simp [timely]⟩ clear unspent
          rw [Option.mem_some_iff.mp same |>.symm]
          exact ⟨by simp [seen], rfl⟩
    next refused =>
      split
      · exact keeps_supersede fresh unheld timely refuses (intact.idle read) (unpaid.idle read)
      · exact keeps_resolvePending (Bool.eq_false_iff.mpr refused) refuses (intact.idle read)
          (unpaid.idle read)

theorem keeps_maybeExpirePending {next : Guard GuardOutcome}
    (rest : ∀ tail, (∀ event ∈ tail, Idle event.op) → Keeps analysis cfg request (past ++ tail) next) :
    Keeps analysis cfg request past (do maybeExpirePending request; next) := by
  refine ⟨trivial, fun reply => ?_⟩
  match reply with
  | .error fault => exact keeps_throw fault
  | .ok false => exact rest _ (idle_singleton _ _ trivial)
  | .ok true =>
    refine ⟨trivial, fun reply => ?_⟩
    rw [List.append_assoc]
    exact rest _ (idle_snoc _ _ (idle_singleton _ _ trivial) trivial)

theorem keeps_findHold {next : Option PendingRequest → Guard GuardOutcome}
    (rest : ∀ existing tail, (∀ event ∈ tail, Idle event.op) →
      (∀ hold ∈ existing, analysis.parseIntent standing.forwardBody ≠ .negative →
        ⟨.latestHold request.sessionId request.model request.headers, .ok (some hold)⟩ ∈ tail) →
      Keeps analysis cfg request (past ++ tail) (next existing)) :
    Keeps analysis cfg request past (findHold analysis request standing >>= next) := by
  refine ⟨trivial, fun reply => ?_⟩
  match reply with
  | .error fault => exact keeps_throw fault
  | .ok (some hold) =>
    refine rest (some hold) _ (idle_singleton _ _ trivial) fun other same _ => ?_
    rw [Option.mem_some_iff.mp same |>.symm]
    simp
  | .ok none =>
    change Keeps analysis cfg request _ ((if analysis.parseIntent standing.forwardBody = .negative then
      call (.latestHold request.sessionId request.model []) else pure none) >>= next)
    split
    next negative =>
      refine keeps_call (.latestHold request.sessionId request.model []) trivial fun existing => ?_
      rw [List.append_assoc]
      exact rest existing _ (idle_snoc _ _ (idle_singleton _ _ trivial) trivial) fun _ _ unrefused => absurd negative unrefused
    next => exact rest none _ (idle_singleton _ _ trivial) (by simp)

theorem keeps_pendingCheck (fresh : standing.forwardBody = forwardBody analysis request)
    (unheld : standing.scopeReplay = none) (timely : standing.latePending = none) :
    Keeps analysis cfg request [] (pendingCheck analysis cfg request standing) := by
  refine keeps_maybeExpirePending fun swept sweeping => ?_
  refine keeps_findHold fun existing looked looking found => ?_
  have quiet : ∀ event ∈ [] ++ swept ++ looked, Idle event.op := by
    intro event member
    obtain before | after := List.mem_append.mp member
    · exact sweeping event (by simpa using before)
    · exact looking event after
  have untouched : Intact [] := ⟨by simp, by simp⟩
  have unbilled : Unpaid [] := fun _ _ => by simp
  have clear : Intact ([] ++ swept ++ looked) := untouched.idle quiet
  have unspent : Unpaid ([] ++ swept ++ looked) := unbilled.idle quiet
  have seen (hold : PendingRequest) (same : hold ∈ existing)
      (unrefused : analysis.parseIntent standing.forwardBody ≠ .negative) :
      ⟨.latestHold request.sessionId request.model request.headers, .ok (some hold)⟩ ∈ [] ++
          swept ++ looked :=
    List.mem_append_right _ (found hold same unrefused)
  generalize [] ++ swept ++ looked = earlier at quiet clear unspent seen
  refine keeps_call (.discardExpired request.sessionId _) trivial fun _ => ?_
  refine keeps_call .openApprovals trivial fun _ => ?_
  rw [List.append_assoc]
  replace clear : Intact (earlier ++
    ([⟨.discardExpired request.sessionId (existing.elim "" PendingRequest.pendingId),
      .ok ()⟩] ++ [⟨.openApprovals, .ok ()⟩])) := clear.extend (by simp)
  replace unspent : Unpaid (earlier ++ ([⟨.discardExpired request.sessionId
      (existing.elim "" PendingRequest.pendingId), .ok ()⟩] ++ [⟨.openApprovals, .ok ()⟩])) := by
    intro key risk member
    exact unspent key risk (by simpa using member)
  cases existing with
  | none => exact keeps_antiLoop ⟨fun _ => fresh, by simp [unheld], by simp [timely]⟩ clear unspent
  | some hold =>
    refine keeps_resolveHold fresh unheld timely ?_ ?_ clear unspent
    · exact fun unrefused => List.mem_append_left _ (seen hold rfl unrefused)
    · intro event member
      obtain before | after := List.mem_append.mp member
      · exact (quiet event before).undisturbed _
      · obtain same | same : event = _ ∨ event = _ := by simpa using after
        · rw [same]; rfl
        · rw [same]; trivial

theorem keeps_tipCancel {tip : TIPDirective} {stripped : Bytes}
    (parsed : directiveOf analysis request.body = some (tip, stripped)) (cancels : tip.cancel = true) :
    Keeps analysis cfg request [] (tipCancel request stripped) := by
  have refuses : Refuses analysis request := .inl ⟨(tip, stripped), parsed, cancels⟩
  have finish (existing : Option PendingRequest) (earlier : List GuardEvent)
      (looked : existing = none → earlier =
        [⟨.openApprovals, .ok ()⟩, ⟨.revoke request.approvalKey, .ok ()⟩,
          ⟨.latestHold request.sessionId request.model request.headers, .ok none⟩,
          ⟨.latestHold request.sessionId request.model [], .ok none⟩])
      (uncreated : ∀ key tip risk reply, ⟨.create key tip risk, reply⟩ ∉ earlier) (unpaid : Unpaid earlier) :
      Keeps analysis cfg request earlier (do
        call (.discardExpired request.sessionId (existing.elim "" PendingRequest.pendingId))
        acknowledge stripped existing) := by
    refine keeps_call (.discardExpired _ _) trivial fun _ => ?_
    cases existing with
    | some hold =>
      refine keeps_call (.discard hold.pendingId) trivial fun changed => ?_
      refine keeps_pure (accounted_cancel changed refuses (by simp) ?_ ?_)
      · intro key tip risk reply member
        exact uncreated key tip risk reply (by simpa using member)
      · intro key risk member
        exact unpaid key risk (by simpa using member)
    | none =>
      obtain rfl := looked rfl
      refine keeps_pure ⟨?_, fun _ _ => .inr ⟨⟨_, parsed, cancels, rfl⟩, _, rfl⟩, ?_, ?_⟩ <;>
        intro kind <;> cases kind
  refine keeps_call .openApprovals trivial fun _ => ?_
  refine keeps_call (.revoke request.approvalKey) rfl fun _ => ?_
  refine keeps_call (.latestHold _ _ _) trivial fun inScope => ?_
  cases inScope with
  | some hold => exact finish (some hold) _ (fun absent => by cases absent) (by simp) (fun _ _ => by simp)
  | none =>
    refine keeps_call (.latestHold _ _ _) trivial fun existing => ?_
    refine finish existing _ (fun absent => ?_) (by simp) (fun _ _ => by simp)
    subst absent
    rfl

/-- Every evaluation keeps the contract, whatever its operations answer. -/
theorem evaluate_keeps (analysis : Analysis) (cfg : SpendGuardConfig) (request : Request) :
    Keeps analysis cfg request [] (evaluate analysis cfg request) := by
  unfold evaluate
  split
  next disabled => exact keeps_pure ⟨nofun, fun enabled => by simp [disabled] at enabled, nofun, nofun⟩
  next =>
    split
    next parsed => exact keeps_pendingCheck (by simp [forwardBody, parsed]) rfl rfl
    next tip stripped parsed =>
      split
      next cancels => exact keeps_tipCancel parsed cancels
      next => exact keeps_pendingCheck (by simp [forwardBody, parsed]) rfl rfl

end TokenPak.SpendGuard.EvaluateContract
