import TokenPak.Proofs.HoldRelease

/-! Replay and cancellation of one hold. Both are conditional updates of the same
row, but only the replay looks at the result of its update: a cancellation that
comes after the replay is reported all the same. -/

namespace TokenPak.SpendGuard.ReplayCancel
open Library EvaluateContract HoldRelease

def Refuses : GuardCall → Prop
  | .evaluate call => EvaluateContract.Refuses call.analysis call.request
  | .resolvePending _ intent _ => intent = .negative

def calls {Thread : Type} (world : World) (callers : Thread → GuardCall) : GuardPool Thread :=
  .init world fun thread => (callers thread).program

/-- No hold is reported both replayed and cancelled. -/
def Exclusive {Thread : Type} (pool : GuardPool Thread) : Prop :=
  ∀ first second outcome other pendingId, pool.threads first = .done (.ok outcome) →
    pool.threads second = .done (.ok other) → outcome.kind = .replay → other.kind = .cancel →
    outcome.pendingId = some pendingId → other.pendingId = some pendingId → False

/-- What an outcome says about the two updates of the row. -/
structure Reported (refuses : Prop) (past : List GuardEvent) (outcome : GuardOutcome) : Prop where
  replayed : outcome.kind = .replay → ∃ id row, ⟨.consume id, .ok (some row)⟩ ∈ past ∧
    (outcome.pendingId = some id ∨ outcome.pendingId = some row.pendingId)
  cancelled : outcome.kind = .cancel → refuses ∧ ∃ id changed, outcome.pendingId = some id ∧
    ⟨.discard id, .ok changed⟩ ∈ past

def Reports (refuses : Prop) (past : List GuardEvent) : Except Fault GuardOutcome → Prop
  | .ok outcome => Reported refuses past outcome
  | .error _ => True

theorem reported_refusal {refuses : Prop} {past : List GuardEvent} {outcome : GuardOutcome}
    (kept : outcome.kind ≠ .replay)
    (standing : outcome.kind ≠ .cancel) : Reported refuses past outcome :=
  ⟨fun kind => absurd kind kept, fun kind => absurd kind standing⟩

/-- Both ways to a replay consume the hold and report it. -/
theorem replay_reports (refuses : Prop) (pending : PendingRequest) :
    Program.Ensures (fun _ _ => True) (Reports refuses) [] (resolvePending pending .positive none) := by
  refine (ensures_perform _ _).mpr ⟨trivial, fun row => ?_, fun _ => trivial⟩
  cases row with
  | none => exact reported_refusal (by simp) (by simp)
  | some row => exact ⟨fun _ => ⟨pending.pendingId, row, by simp, .inl rfl⟩, fun kind => (by cases kind)⟩

theorem resolvePending_reports (pending : PendingRequest) (intent : Intent) (tip : Option TIPDirective) :
    Program.Ensures (fun _ _ => True) (Reports (intent = .negative)) []
    (resolvePending pending intent tip) := by
  have replay := replay_reports (intent = .negative) pending
  unfold resolvePending
  dsimp only
  split
  · exact replay
  · cases intent with
    | positive => exact replay
    | negative =>
      refine (ensures_perform _ _).mpr ⟨trivial, fun changed => ?_, fun _ => trivial⟩
      refine ⟨fun kind => ?_, fun _ => ⟨rfl, pending.pendingId, changed, rfl, by simp⟩⟩
      cases kind
    | ambiguous => exact reported_refusal (by simp) (by simp)

theorem program_reports (caller : GuardCall) :
    Program.Ensures (fun _ _ => True) (Reports (Refuses caller)) [] caller.program := by
  cases caller with
  | resolvePending pending intent tip => exact resolvePending_reports pending intent tip
  | evaluate call =>
    have contract := evaluate_keeps call.analysis call.cfg call.request
    refine (contract.allow fun _ _ _ => trivial).mono fun past result accounted => ?_
    cases result with
    | error => trivial
    | ok outcome =>
      refine ⟨fun kind => ?_, accounted.cancelled⟩
      obtain ⟨hold, consumed, _, taken, _, named, _⟩ := accounted.replayed kind
      exact ⟨hold.pendingId, consumed, taken, .inr named⟩

/-- The run whose cancellations find their hold not yet consumed: at each discard
by a refusing caller the row is there and open, or discarded before. -/
def timely {Thread : Type} (callers : Thread → GuardCall) (thread : Thread) (world : World)
    (event : GuardEvent)
    (after : World) : Prop :=
  World.Step world event after ∧
    (Refuses (callers thread) → ∀ id, event.op = .discard id → ∃ status, world.HasStatus id status ∧
      status ≠ .consumed)

variable {Thread : Type} {callers : Thread → GuardCall}

/-- What such a run keeps: replayed holds are consumed, cancelled ones discarded. -/
structure Settled (callers : Thread → GuardCall) (world : World)
    (log : List (Thread × GuardEvent)) : Prop where
  consumed : ∀ thread id row, (thread, ⟨.consume id, .ok (some row)⟩) ∈ log →
    row.pendingId = id ∧ world.HasStatus id .consumed
  discarded : ∀ thread id changed, Refuses (callers thread) → (thread, ⟨.discard id, .ok changed⟩) ∈ log →
    world.HasStatus id .discarded

theorem Settled.step {world after : World} {log : List (Thread × GuardEvent)} {thread : Thread}
    {event : GuardEvent}
    (settled : Settled callers world log) (step : timely callers thread world event after) :
    Settled callers after (log ++ [(thread, event)]) := by
  obtain ⟨step, timely⟩ := step
  constructor
  · intro actor id row member
    obtain before | last := List.mem_append.mp member
    · obtain ⟨named, consumed⟩ := settled.consumed actor id row before
      exact ⟨named, consumed.consumed_step step⟩
    · obtain ⟨-, rfl⟩ := Prod.mk.inj (List.mem_singleton.mp last)
      obtain ⟨ambient, _, answer, rfl⟩ := step.answer
      obtain ⟨_, consumed, named, _⟩ := World.consume_answered answer
      exact ⟨named, consumed⟩
  · intro actor id changed refuses member
    obtain before | last := List.mem_append.mp member
    · exact (settled.discarded actor id changed refuses before).discarded_step step
    · obtain ⟨rfl, rfl⟩ := Prod.mk.inj (List.mem_singleton.mp last)
      obtain ⟨status, found, unconsumed⟩ := timely refuses id rfl
      obtain ⟨ambient, _, _, rfl⟩ := step.answer
      exact World.discard_answered found unconsumed

variable [DecidableEq Thread]

/-- In every run whose cancellations find their hold unconsumed, no hold is
reported both replayed and cancelled. -/
theorem replay_cancel_exclusive (world : World) (callers : Thread → GuardCall) {pool : GuardPool Thread}
    (reached : Pool.Reaches (timely callers) (calls world callers) pool) : Exclusive pool := by
  intro first second outcome other pendingId finished ended replayed cancelled named named'
  have settled : Settled callers pool.world pool.log :=
    reached.invariant _ ⟨by simp [calls, Pool.init], by simp [calls, Pool.init]⟩ fun _ _ _ _ _ settled step => settled.step step
  have report := reached.result (fun thread => program_reports (callers thread)) finished
  have report' := reached.result (fun thread => program_reports (callers thread)) ended
  obtain ⟨id, row, taken, reported⟩ := report.replayed replayed
  obtain ⟨same, consumed⟩ := settled.consumed first id row (Pool.mem_history.mp taken)
  obtain ⟨refuses, id', changed, reported', discarded⟩ := report'.cancelled cancelled
  have gone := settled.discarded second id' changed refuses (Pool.mem_history.mp discarded)
  obtain rfl : id = pendingId := by
    rw [same, or_self, named] at reported
    exact (Option.some.inj reported).symm
  obtain rfl : id' = id := by
    rw [named'] at reported'
    exact (Option.some.inj reported').symm
  cases consumed.unique gone

/-! A refusal that finds the hold pending, before the approval has started. -/

def refusedFirst (thread : Bool) : GuardCall :=
  if thread then .resolvePending approvedHold .negative none else .evaluate approval

def cancelledFirst : GuardPool Bool := Pool.follow World.turn [(true, 1)] (calls heldWorld refusedFirst)

theorem replay_cancel_exclusive_cancelled :
    cancelledFirst.threads true = .done (.ok (cancelledOutcome approvedHold)) ∧ Exclusive cancelledFirst := by
  refine ⟨rfl, replay_cancel_exclusive heldWorld refusedFirst (.single (.act rfl ⟨World.turn_step 1 _ _, ?_⟩))⟩
  rintro - id same
  obtain rfl : "tpg_1" = id := Op.discard.inj same
  exact ⟨.pending, ⟨approvedHold, List.mem_singleton_self _, rfl, rfl⟩, nofun⟩

/-! A refusal that read the hold before an approval consumed it. -/

def refusal : Evaluation :=
  { approval with analysis := { approval.analysis with parseIntent := fun _ => .negative } }

/-- The refusing caller reaches its discard, the approving one runs to its end,
then the refusing one goes on. -/
def refusedLate : GuardPool Bool :=
  Pool.follow World.turn (List.replicate 5 (true, 1) ++ List.replicate 12 (false, 1) ++
    List.replicate 4 (true, 1))
    (calls heldWorld fun late => .evaluate (if late then refusal else approval))

theorem replay_and_cancel_reported :
    ¬∀ (world : World) (callers : Bool → GuardCall) (pool : GuardPool Bool),
      Pool.Reaches (fun _ => World.Step) (calls world callers) pool → Exclusive pool := by
  intro exclusive
  refine exclusive heldWorld _ refusedLate (Pool.follow_reaches (fun _ => World.turn_step) _ _) false true
    (replayOutcome { approvedHold with status := .consumed } none) (cancelledOutcome approvedHold) "tpg_1"
    ?_ ?_ rfl rfl rfl rfl
  · with_unfolding_all rfl
  · with_unfolding_all rfl

end TokenPak.SpendGuard.ReplayCancel
