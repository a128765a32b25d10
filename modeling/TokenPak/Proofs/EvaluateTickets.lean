import TokenPak.Proofs.EvaluateContract

/-! What an evaluation does to the in-flight register, for every answer its
operations may get. A request that is not sent returns the ticket it took; one
that is sent carries exactly the ticket of its own projection. -/

namespace TokenPak.SpendGuard.EvaluateTickets
open Library RollingCaps EvaluateContract

def touches : Op → Bool
  | .checkRollingCapsAndAdmit .. | .settlePendingSpend .. => true
  | _ => false

def moves (past : List GuardEvent) : List GuardEvent := past.filter fun event => touches event.op

/-- The cap wiring answered: nothing in it raised, and an admission came with its ticket. -/
def Wired : GuardEvent → Prop
  | ⟨.checkRollingCapsAndAdmit .., .ok (none, none)⟩ => False
  | ⟨.checkRollingCapsAndAdmit .., .error _⟩ => False
  | ⟨.settlePendingSpend .., .error _⟩ => False
  | ⟨.recordSessionAgent .., .error _⟩ => False
  | _ => True

section contract
variable (analysis : Analysis) (cfg : SpendGuardConfig) (request : Request)

/-- Requests that the caps are not asked about: the guard or the caps are off, the
request names no agent, or it is a cancellation. -/
def Uncapped : Prop :=
  cfg.enabled = false ∨ cfg.rollingCapsEnabled = false ∨ agentId request.headers = "" ∨
    ∃ directive ∈ directiveOf analysis request.body, directive.1.cancel = true

/-- The caps passed the estimate and registered it under this ticket. -/
def admitted (est : RiskEstimate) (ticket : String) : GuardEvent :=
  ⟨.checkRollingCapsAndAdmit request.process (admissionOf cfg request est), .ok (none, some ticket)⟩

/-- The bytes that the outcome sends were estimated so. A replay sends the row
that was consumed, after an estimate of the row that was found. -/
def Estimates (past : List GuardEvent) (outcome : GuardOutcome) (est : RiskEstimate) : Prop :=
  ∃ body, analysis.estimateAnchored body request.model request.sessionId = .ok est ∧
    (outcome.body = some body ∨ ∃ hold consumed,
      ⟨.latestHold request.sessionId request.model request.headers, .ok (some hold)⟩ ∈ past ∧
      ⟨.consume hold.pendingId, .ok (some consumed)⟩ ∈ past ∧ outcome.body = some consumed.rawRequestBlob ∧
      body = hold.rawRequestBlob)

/-- Nothing of the call is left in the register. -/
def Returned (past : List GuardEvent) : Prop :=
  moves past = [] ∨
  (∃ admission breach ticket,
    moves past = [⟨.checkRollingCapsAndAdmit request.process admission, .ok (some breach, ticket)⟩]) ∨
  ∃ est ticket answer,
    moves past = [admitted cfg request est ticket, ⟨.settlePendingSpend request.process ticket, .ok answer⟩]

def Carried (past : List GuardEvent) (outcome : GuardOutcome) : Prop :=
  (Uncapped analysis cfg request ∧ moves past = [] ∧ outcome.admissionTicket = none) ∨
  cfg.rollingCapsEnabled = true ∧ ∃ est ticket, moves past = [admitted cfg request est ticket] ∧
    outcome.admissionTicket = some ticket ∧ Estimates analysis request past outcome est

def Post (past : List GuardEvent) : Except Fault GuardOutcome → Prop
  | .ok outcome => (∀ event ∈ past, Wired event) →
    if outcome.kind.sends then Carried analysis cfg request past outcome else Returned cfg request past
  | .error _ => True

/-- The stage keeps the register in balance from here on. -/
def Tallies (past : List GuardEvent) (stage : Guard GuardOutcome) : Prop :=
  Program.Ensures (fun _ _ => True) (Post analysis cfg request) past stage

/-- The ticket at hand is the only thing that the call has in the register. -/
def Holds (past : List GuardEvent) (est : RiskEstimate) (ticket : Option String) : Prop :=
  (∀ event ∈ past, Wired event) → (Uncapped analysis cfg request ∧ ticket = none ∧ moves past = []) ∨
    cfg.rollingCapsEnabled = true ∧ ∃ id, ticket = some id ∧ moves past = [admitted cfg request est id]

def Clear (past : List GuardEvent) : Prop := (∀ event ∈ past, Wired event) → Returned cfg request past

def Replays (past : List GuardEvent) (standing : Standing) : Prop :=
  ∀ hold ∈ standing.scopeReplay,
    ⟨.latestHold request.sessionId request.model request.headers, .ok (some hold)⟩ ∈ past ∧
      standing.forwardBody = hold.rawRequestBlob

end contract

@[simp] theorem moves_nil : moves [] = [] := rfl

variable {op : Op} {outcome : GuardOutcome} {hold : PendingRequest}

theorem moves_untouched (untouched : touches op = false) (past : List GuardEvent)
    (reply : Reply op) : moves (past ++ [⟨op, reply⟩]) = moves past := by
  simp [moves, untouched]

theorem moves_touched (touched : touches op = true) (past : List GuardEvent) (reply : Reply op) :
    moves (past ++ [⟨op, reply⟩]) = moves past ++ [⟨op, reply⟩] := by
  simp [moves, touched]

theorem wired_before {past tail : List GuardEvent} (wired : ∀ event ∈ past ++ tail, Wired event) :
    ∀ event ∈ past, Wired event := fun event member => wired event (List.mem_append_left _ member)

variable {analysis : Analysis} {cfg : SpendGuardConfig} {request : Request} {past : List GuardEvent}
  {standing : Standing}
  {est : RiskEstimate} {ticket : Option String} {decision : PreflightDecision}

theorem Replays.extend (replays : Replays request past standing) (tail : List GuardEvent) :
    Replays request (past ++ tail) standing :=
  fun hold held => ⟨List.mem_append_left _ (replays hold held).1, (replays hold held).2⟩

theorem Holds.extend (holds : Holds analysis cfg request past est ticket)
    (untouched : touches op = false) (reply : Reply op) :
    Holds analysis cfg request (past ++ [⟨op, reply⟩]) est ticket := by
  intro wired
  rw [moves_untouched untouched]
  exact holds (wired_before wired)

theorem Clear.extend (clear : Clear cfg request past) (untouched : touches op = false)
    (reply : Reply op) : Clear cfg request (past ++ [⟨op, reply⟩]) := by
  intro wired
  have returned := clear (wired_before wired)
  unfold Returned at returned ⊢
  rwa [moves_untouched untouched]

theorem clear_of_moves (empty : moves past = []) : Clear cfg request past := fun _ => .inl empty

theorem tallies_kept (kept : outcome.kind.sends = false) (clear : Clear cfg request past) :
    Tallies analysis cfg request past (pure outcome) := by
  intro wired
  rw [kept]
  exact clear wired

theorem tallies_sent (sent : outcome.kind.sends = true)
    (carried : (∀ event ∈ past, Wired event) → Carried analysis cfg request past outcome) :
    Tallies analysis cfg request past (pure outcome) := by
  intro wired
  rw [sent]
  exact carried wired

theorem tallies_call (op : Op) {next : Answer op → Guard GuardOutcome}
    (rest : ∀ answer, Tallies analysis cfg request (past ++ [⟨op, .ok answer⟩]) (next answer)) :
    Tallies analysis cfg request past (call op >>= next) :=
  (ensures_perform op next).mpr ⟨trivial, rest, fun _ => trivial⟩

theorem tallies_tryCall (op : Op) {next : Reply op → Guard GuardOutcome}
    (rest : ∀ reply, Tallies analysis cfg request (past ++ [⟨op, reply⟩]) (next reply)) :
    Tallies analysis cfg request past (tryCall op >>= next) :=
  (ensures_attempt op next).mpr ⟨trivial, rest⟩

theorem tallies_cancelAdmission {next : Guard GuardOutcome}
    (holds : Holds analysis cfg request past est ticket)
    (rest : ∀ later, Clear cfg request later → Tallies analysis cfg request later next) :
    Tallies analysis cfg request past (do cancelAdmission request ticket; next) := by
  cases ticket with
  | none =>
    apply rest
    intro wired
    rcases holds wired with ⟨_, _, empty⟩ | ⟨_, id, named, _⟩
    · exact .inl empty
    · cases named
  | some ticket =>
    refine ⟨trivial, fun reply => rest _ fun wired => ?_⟩
    rcases holds (wired_before wired) with ⟨_, named, _⟩ | ⟨_, id, named, taken⟩
    · cases named
    · obtain rfl := Option.some.inj named
      cases reply with
      | error fault => exact absurd (wired _ (List.mem_append_right _ (List.mem_singleton_self _))) id
      | ok answer =>
        refine .inr (.inr ⟨est, ticket, answer, ?_⟩)
        rw [moves_touched rfl, taken]
        rfl

theorem tallies_recordGrant {tip : Option TIPDirective} (sent : outcome.kind.sends = true)
    (holds : Holds analysis cfg request past est ticket)
    (carries : outcome.admissionTicket = ticket)
    (estimates : ∀ tail, Estimates analysis request (past ++ tail) outcome est) :
    Tallies analysis cfg request past (do recordGrant request tip est; pure outcome) := by
  have carried (later : List GuardEvent) (kept : Holds analysis cfg request later est ticket)
      (estimated : Estimates analysis request later outcome est) :
      Tallies analysis cfg request later (pure outcome) := by
    apply tallies_sent sent
    intro wired
    rcases kept wired with ⟨uncapped, rfl, empty⟩ | ⟨enabled, id, rfl, taken⟩
    · exact .inl ⟨uncapped, empty, carries⟩
    · exact .inr ⟨enabled, est, id, taken, carries, estimated⟩
  have unchanged := estimates []
  rw [List.append_nil] at unchanged
  cases tip with
  | none => exact carried past holds unchanged
  | some directive =>
    simp only [recordGrant]
    split
    · exact carried past holds unchanged
    · exact tallies_call (.create request.approvalKey directive est)
        fun answer => carried _ (holds.extend rfl _) (estimates _)

theorem tallies_send (replays : Replays request past standing)
    (holds : Holds analysis cfg request past est ticket)
    (estimated : analysis.estimateAnchored standing.forwardBody request.model request.sessionId = .ok est) :
    Tallies analysis cfg request past (send request standing est ticket decision) := by
  unfold send
  cases held : standing.scopeReplay with
  | none =>
    refine tallies_recordGrant ?_ holds rfl fun tail => ⟨standing.forwardBody, estimated, .inl rfl⟩
    cases standing.modified <;> rfl
  | some hold =>
    obtain ⟨found, same⟩ := replays hold held
    rw [same] at estimated
    apply tallies_call (.consume hold.pendingId)
    intro answer
    cases answer with
    | none => exact tallies_cancelAdmission (holds.extend rfl _) fun later clear => tallies_kept rfl clear
    | some consumed =>
      refine tallies_recordGrant rfl (holds.extend rfl _) rfl fun tail => ?_
      exact ⟨hold.rawRequestBlob, estimated, .inr ⟨hold, consumed, by simp [found], by simp, rfl, rfl⟩⟩

theorem tallies_release (replays : Replays request past standing)
    (holds : Holds analysis cfg request past est ticket)
    (estimated : analysis.estimateAnchored standing.forwardBody request.model request.sessionId = .ok est) :
    Tallies analysis cfg request past (release request standing est ticket decision) := by
  unfold release
  cases standing.latePending with
  | none => exact tallies_send replays holds estimated
  | some late =>
    apply tallies_call (.consumeExpired request.approvalKey late.pendingId standing.lateReplyHash)
    intro answer
    cases answer with
    | true => exact tallies_send (replays.extend _) (holds.extend rfl _) estimated
    | false => exact tallies_cancelAdmission (holds.extend rfl _) fun later clear => tallies_kept rfl clear

theorem tallies_holdRequest (clear : Clear cfg request past) :
    Tallies analysis cfg request past (holdRequest analysis cfg request standing est decision) := by
  apply tallies_tryCall (.store _)
  intro reply
  cases reply with
  | error fault => exact tallies_kept rfl (clear.extend rfl _)
  | ok pending =>
    apply tallies_call (.rememberBlockResponse pending.pendingId _)
    intro answer
    exact tallies_kept rfl ((clear.extend rfl _).extend rfl _)

theorem tallies_refuse (holds : Holds analysis cfg request past est ticket) :
    Tallies analysis cfg request past (refuse analysis cfg request standing est ticket decision) := by
  apply tallies_cancelAdmission holds
  intro later clear
  split
  · exact tallies_kept rfl clear
  · cases standing.scopeReplay with
    | some hold => exact tallies_kept rfl clear
    | none =>
      dsimp only
      split
      · exact tallies_kept rfl clear
      · exact tallies_holdRequest clear

theorem tallies_conclude (replays : Replays request past standing)
    (holds : Holds analysis cfg request past est ticket)
    (estimated : analysis.estimateAnchored standing.forwardBody request.model request.sessionId = .ok est) :
    Tallies analysis cfg request past (conclude analysis cfg request standing est ticket decision) := by
  unfold conclude
  split
  · exact tallies_cancelAdmission holds fun later clear => tallies_kept rfl clear
  · cases decision.decision with
    | allow | warn => exact tallies_release replays holds estimated
    | hardBlock => exact tallies_cancelAdmission holds fun later clear => tallies_kept rfl clear
    | block => exact tallies_refuse holds

theorem tallies_weigh {running : ℚ} (replays : Replays request past standing)
    (holds : Holds analysis cfg request past est ticket)
    (estimated : analysis.estimateAnchored standing.forwardBody request.model request.sessionId = .ok est) :
    Tallies analysis cfg request past (weigh analysis cfg request standing est ticket running) := by
  unfold weigh
  dsimp only
  split
  · exact tallies_conclude replays holds estimated
  split
  · split
    · apply tallies_call (.redeem _ _)
      intro answer
      cases answer with
      | true => exact tallies_conclude (replays.extend _) (holds.extend rfl _) estimated
      | false => exact tallies_conclude (replays.extend _) (holds.extend rfl _) estimated
    · exact tallies_conclude replays holds estimated
  · exact tallies_conclude replays holds estimated

theorem tallies_judge (replays : Replays request past standing)
    (holds : Holds analysis cfg request past est ticket)
    (estimated : analysis.estimateAnchored standing.forwardBody request.model request.sessionId = .ok est) :
    Tallies analysis cfg request past (judge analysis cfg request standing est ticket) := by
  rw [judge_eq]
  unfold sessionRunning
  split
  · refine ⟨trivial, fun reply => ?_⟩
    cases reply with
    | ok cost => exact tallies_weigh (replays.extend _) (holds.extend rfl _) estimated
    | error fault => exact tallies_weigh (replays.extend _) (holds.extend rfl _) estimated
  · exact tallies_weigh replays holds estimated

theorem tallies_askCaps (replays : Replays request past standing) (empty : moves past = [])
    (estimated : analysis.estimateAnchored standing.forwardBody request.model request.sessionId = .ok est) :
    Tallies analysis cfg request past (askCaps analysis cfg request standing est) := by
  unfold askCaps
  split
  next asked =>
    apply tallies_tryCall (.checkRollingCapsAndAdmit request.process (admissionOf cfg request est))
    intro reply
    have taken := moves_touched rfl past reply
    rw [empty] at taken
    match reply with
    | .error _ =>
      refine tallies_judge (replays.extend _) (fun wired => ?_) estimated
      exact absurd (wired _ (List.mem_append_right _ (List.mem_singleton_self _))) id
    | .ok (some breach, ticket) => exact tallies_kept rfl fun _ => .inr (.inl ⟨_, breach, ticket, taken⟩)
    | .ok (none, none) =>
      refine tallies_judge (replays.extend _) (fun wired => ?_) estimated
      exact absurd (wired _ (List.mem_append_right _ (List.mem_singleton_self _))) id
    | .ok (none, some ticket) =>
      exact tallies_judge (replays.extend _) (fun _ => .inr ⟨asked.1, ticket, rfl, taken⟩) estimated
  next skipped =>
    refine tallies_judge replays (fun _ => .inl ⟨?_, rfl, empty⟩) estimated
    by_cases enabled : cfg.rollingCapsEnabled = true
    · exact .inr (.inr (.inl (of_not_not fun named => skipped ⟨enabled, named⟩)))
    · exact .inr (.inl (Bool.eq_false_iff.mpr enabled))

theorem tallies_admitStage (replays : Replays request past standing) (empty : moves past = [])
    (estimated : analysis.estimateAnchored standing.forwardBody request.model request.sessionId = .ok est) :
    Tallies analysis cfg request past (admitStage analysis cfg request standing est) := by
  rw [admitStage_eq]
  split
  · apply tallies_tryCall (.recordSessionAgent _ _)
    intro reply
    cases reply with
    | error _ =>
      refine tallies_judge (replays.extend _) (fun wired => ?_) estimated
      exact absurd (wired _ (List.mem_append_right _ (List.mem_singleton_self _))) id
    | ok _ => exact tallies_askCaps (replays.extend _) (by rw [moves_untouched rfl, empty]) estimated
  · exact tallies_askCaps replays empty estimated

theorem tallies_estimateStage (replays : Replays request past standing) (empty : moves past = []) :
    Tallies analysis cfg request past (estimateStage analysis cfg request standing) := by
  unfold estimateStage
  split
  next => exact tallies_kept rfl (clear_of_moves empty)
  next est estimated =>
    split
    next => exact tallies_admitStage replays empty estimated
    next =>
      split
      next => exact trivial
      next =>
        split
        · exact tallies_admitStage replays empty estimated
        · apply tallies_call (.rememberReply _ _)
          intro answer
          exact tallies_admitStage (fun hold held => replays.extend _ hold held)
            (by rw [moves_untouched rfl, empty]) estimated

theorem tallies_antiLoop (replays : Replays request past standing) (empty : moves past = []) :
    Tallies analysis cfg request past (antiLoop analysis cfg request standing) := by
  apply tallies_call (.recentBlockByHash _ _ _)
  intro recent
  have first : moves (past ++ [⟨.recentBlockByHash (analysis.hashRequest standing.forwardBody request.model) (seconds 30)
      request.sessionId, .ok recent⟩]) = [] := by rw [moves_untouched rfl, empty]
  cases recent with
  | none => exact tallies_estimateStage (replays.extend _) first
  | some recent =>
    dsimp only
    split
    · exact tallies_estimateStage (replays.extend _) first
    · apply tallies_call .now
      intro now
      split
      · exact tallies_kept rfl (clear_of_moves (by rw [moves_untouched rfl, first]))
      · exact tallies_estimateStage ((replays.extend _).extend _) (by rw [moves_untouched rfl, first])

theorem tallies_supersede {intent : Intent} (unheld : standing.scopeReplay = none)
    (empty : moves past = []) :
    Tallies analysis cfg request past (supersede analysis cfg request standing hold intent) := by
  apply tallies_call (.discard hold.pendingId)
  intro changed
  split
  · apply tallies_call (.revoke _)
    intro answer
    exact tallies_kept rfl (clear_of_moves (by rw [moves_untouched rfl, moves_untouched rfl, empty]))
  · exact tallies_antiLoop (by simp [Replays, unheld]) (by rw [moves_untouched rfl, empty])

theorem tallies_resolvePending {intent : Intent}
    (unapproved : approves standing.tip intent = false) (empty : moves past = []) :
    Tallies analysis cfg request past (do
      let outcome ← resolvePending hold intent standing.tip
      if outcome.kind = .cancel then call (.revoke request.approvalKey)
      pure outcome) := by
  have authorized : ¬(standing.tip.any (fun tip => tip.allowScope.isSome || tip.bypass) = true ∧
      intent ≠ .negative) := by
    rintro ⟨directed, unrefused⟩
    simp [approves, directed, unrefused] at unapproved
  unfold resolvePending
  dsimp only
  rw [if_neg authorized]
  cases intent with
  | positive => simp [approves] at unapproved
  | ambiguous => exact tallies_kept rfl (clear_of_moves empty)
  | negative =>
    refine ⟨trivial, fun reply => ?_⟩
    cases reply with
    | error fault => exact trivial
    | ok changed =>
      apply tallies_call (.revoke request.approvalKey)
      intro answer
      exact tallies_kept rfl (clear_of_moves (by rw [moves_untouched rfl, moves_untouched rfl, empty]))

theorem tallies_resolveHold (unheld : standing.scopeReplay = none)
    (own : analysis.parseIntent standing.forwardBody ≠ .negative →
      ⟨.latestHold request.sessionId request.model request.headers, .ok (some hold)⟩ ∈ past)
    (empty : moves past = []) :
    Tallies analysis cfg request past (resolveHold analysis cfg request standing hold) := by
  unfold resolveHold
  dsimp only
  split
  · exact tallies_kept rfl (clear_of_moves empty)
  apply tallies_call .now
  intro now
  have read : moves (past ++ [⟨.now, .ok now⟩]) = [] := by rw [moves_untouched rfl, empty]
  split
  next approving =>
    have seen : ⟨.latestHold request.sessionId request.model request.headers, .ok (some hold)⟩ ∈ past := by
      apply own
      intro negative
      simp [approves, negative] at approving
    apply tallies_call (.replyUsed _ _)
    intro used
    have asked : moves (past ++ [⟨.now, .ok now⟩] ++ [⟨.replyUsed request.approvalKey
        (analysis.approvalFingerprint standing.forwardBody), .ok used⟩]) = [] := by rw [moves_untouched rfl, read]
    split
    · split
      · exact tallies_supersede unheld asked
      · exact tallies_kept rfl (clear_of_moves asked)
    · split
      · exact tallies_antiLoop (by simp [Replays, unheld]) asked
      · refine tallies_antiLoop (fun other same => ?_) asked
        rw [← Option.mem_some_iff.mp same]
        exact ⟨by simp [seen], rfl⟩
  next refused =>
    split
    · exact tallies_supersede unheld read
    · exact tallies_resolvePending (Bool.eq_false_iff.mpr refused) read

theorem tallies_pendingCheck (unheld : standing.scopeReplay = none) :
    Tallies analysis cfg request [] (pendingCheck analysis cfg request standing) := by
  have resolved (past : List GuardEvent) (existing : Option PendingRequest) (empty : moves past = [])
      (own : ∀ hold ∈ existing, analysis.parseIntent standing.forwardBody ≠ .negative →
        ⟨.latestHold request.sessionId request.model request.headers, .ok (some hold)⟩ ∈ past) :
      Tallies analysis cfg request past (do
        call (.discardExpired request.sessionId (existing.elim "" PendingRequest.pendingId))
        resume analysis cfg request standing existing) := by
    apply tallies_call (.discardExpired _ _)
    intro first
    apply tallies_call .openApprovals
    intro second
    have still : moves (past ++
      [⟨.discardExpired request.sessionId (existing.elim "" PendingRequest.pendingId),
        .ok first⟩] ++ [⟨.openApprovals, .ok second⟩]) = [] := by
      rw [moves_untouched rfl, moves_untouched rfl, empty]
    cases existing with
    | none => exact tallies_antiLoop (by simp [Replays, unheld]) still
    | some hold =>
      refine tallies_resolveHold unheld (fun unrefused => ?_) still
      exact List.mem_append_left _ (List.mem_append_left _ (own hold rfl unrefused))
  have looked (past : List GuardEvent) (empty : moves past = []) : Tallies analysis cfg request past (do
      let existing ← findHold analysis request standing
      call (.discardExpired request.sessionId (existing.elim "" PendingRequest.pendingId))
      resume analysis cfg request standing existing) := by
    unfold findHold
    refine ⟨trivial, fun reply => ?_⟩
    rcases reply with fault | (_ | hold)
    · exact trivial
    rotate_left
    · refine resolved _ (some hold) (by rw [moves_untouched rfl, empty]) fun other same _ => ?_
      rw [← Option.mem_some_iff.mp same]
      simp
    · change Tallies analysis cfg request _ ((if analysis.parseIntent standing.forwardBody = .negative then
        call (.latestHold request.sessionId request.model []) else pure none) >>= _)
      split
      next negative =>
        apply tallies_call (.latestHold request.sessionId request.model [])
        intro existing
        refine resolved _ existing (by rw [moves_untouched rfl, moves_untouched rfl, empty]) fun hold same unrefused => ?_
        exact absurd negative unrefused
      next => exact resolved _ none (by rw [moves_untouched rfl, empty]) (by simp)
  unfold pendingCheck maybeExpirePending
  refine ⟨trivial, fun reply => ?_⟩
  rcases reply with fault | (_ | _)
  · exact trivial
  · exact looked _ rfl
  · exact ⟨trivial, fun reply => looked _ rfl⟩

theorem tallies_tipCancel {stripped : Bytes} (uncapped : Uncapped analysis cfg request) :
    Tallies analysis cfg request [] (tipCancel request stripped) := by
  have finish (past : List GuardEvent) (existing : Option PendingRequest) (empty : moves past = []) :
      Tallies analysis cfg request past (do
        call (.discardExpired request.sessionId (existing.elim "" PendingRequest.pendingId))
        acknowledge stripped existing) := by
    apply tallies_call (.discardExpired _ _)
    intro answer
    cases existing with
    | none => exact tallies_sent rfl fun _ => .inl ⟨uncapped, by rw [moves_untouched rfl, empty], rfl⟩
    | some hold =>
      apply tallies_call (.discard hold.pendingId)
      intro changed
      exact tallies_kept rfl (clear_of_moves (by rw [moves_untouched rfl, moves_untouched rfl, empty]))
  apply tallies_call .openApprovals
  intro _
  apply tallies_call (.revoke _)
  intro _
  apply tallies_call (.latestHold _ _ _)
  intro inScope
  cases inScope with
  | some hold => exact finish _ (some hold) rfl
  | none =>
    apply tallies_call (.latestHold _ _ _)
    intro existing
    exact finish _ existing rfl

/-- Every evaluation keeps the register in balance, whatever its operations answer. -/
theorem evaluate_tallies (analysis : Analysis) (cfg : SpendGuardConfig) (request : Request) :
    Tallies analysis cfg request [] (evaluate analysis cfg request) := by
  unfold evaluate
  split
  next disabled => exact tallies_sent rfl fun _ => .inl ⟨.inl disabled, rfl, rfl⟩
  split
  · exact tallies_pendingCheck rfl
  next tip stripped parsed =>
    split
    next cancels => exact tallies_tipCancel (.inr (.inr (.inr ⟨_, parsed, cancels⟩)))
    next => exact tallies_pendingCheck rfl

end TokenPak.SpendGuard.EvaluateTickets
