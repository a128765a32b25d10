import TokenPak.Proofs.ReplayScope

/-! The expiry of a hold and the update that consumes it. A call tests the expiry
once, then estimates and decides; the update itself does not test it again, so the
clock may pass the expiry in between. -/

namespace TokenPak.SpendGuard.ExpiredReplay
open Library Pending EvaluateContract EvaluateScope ReplayScope

/-- The world with a record of the time at which each operation ran. -/
structure Timed (Thread : Type) where
  world : World
  record : List (Thread × GuardEvent × Time)

abbrev TimedPool (Thread : Type) := Pool Thread (Timed Thread) Op Reply (Except Fault GuardOutcome)

section machine
variable {Thread : Type}

def timed (thread : Thread) (before : Timed Thread) (event : GuardEvent) (after : Timed Thread) : Prop :=
  World.Step before.world event after.world ∧
    after.record = before.record ++ [(thread, event, after.world.ambient.clock)]

def reading : GuardEvent → Option Time
  | ⟨.now, .ok now⟩ => some now
  | _ => none

def consumes : Op → Option String
  | .consume pendingId => some pendingId
  | _ => none

/-- Between a reading of the clock that showed the hold unexpired and the update
of the same call that consumes it, the clock does not reach the expiry. -/
def Uncrossed (thread : Thread) (before : Timed Thread) (event : GuardEvent) (after : Timed Thread) : Prop :=
  ∀ row ∈ before.world.holds.rows, consumes event.op = some row.pendingId →
    ∀ entry ∈ before.record, entry.1 = thread → ∀ now ∈ reading entry.2.1, now < row.expiresAt →
      after.world.ambient.clock < row.expiresAt

instance [DecidableEq Thread] (thread : Thread) (before : Timed Thread) (event : GuardEvent)
    (after : Timed Thread) :
    Decidable (Uncrossed thread before event after) :=
  inferInstanceAs (Decidable (∀ row ∈ before.world.holds.rows, consumes event.op = some row.pendingId →
    ∀ entry ∈ before.record, entry.1 = thread → ∀ now ∈ reading entry.2.1, now < row.expiresAt →
      after.world.ambient.clock < row.expiresAt))

def timedEvaluations (world : World) (calls : Thread → Evaluation) : TimedPool Thread :=
  .init ⟨world, []⟩ fun thread => (calls thread).program

def ReplayedInTime (pool : TimedPool Thread) : Prop :=
  ∀ thread outcome, pool.threads thread = .done (.ok outcome) → outcome.kind = .replay →
    ∃ pendingId row moment, (thread, ⟨.consume pendingId, .ok (some row)⟩, moment) ∈ pool.world.record ∧
      outcome.pendingId = some row.pendingId ∧ outcome.body = some row.rawRequestBlob ∧ moment < row.expiresAt

end machine

theorem react_consumed {world : World} {op : Op} {row : PendingRequest}
    (member : row ∈ (world.react op).2.holds.rows)
    (consumed : row.status = .consumed) :
    ∃ old, Successor old row ∧ ((old ∈ world.holds.rows ∧ old.status = .consumed) ∨
      (old ∈ world.holds.rows ∧ op = .consume row.pendingId) ∨
      ∃ key replyHash, op = .consumeExpired key row.pendingId replyHash ∧ row.expiresAt ≤ world.ambient.clock) := by
  have kept (present : row ∈ world.holds.rows) : ∃ old, Successor old row ∧
      ((old ∈ world.holds.rows ∧ old.status = .consumed) ∨
        (old ∈ world.holds.rows ∧ op = .consume row.pendingId) ∨
        ∃ key replyHash, op = .consumeExpired key row.pendingId replyHash ∧ row.expiresAt ≤ world.ambient.clock) :=
    ⟨row, .refl row, .inl ⟨present, consumed⟩⟩
  -- an update to another status leaves the consumed rows it does not select
  have closed (status : HoldStatus) (selects : PendingRequest → Prop) [DecidablePred selects]
    (other : status ≠ .consumed)
      (updated : row ∈ (setStatus status selects world.holds).rows) : row ∈ world.holds.rows := by
    obtain ⟨old, present, same⟩ := List.mem_map.mp updated
    split at same
    · rw [← same] at consumed
      exact absurd consumed other
    · exact same ▸ present
  cases op with
  | expireOld => exact kept (closed .expired (Stale world.ambient.clock) (by decide) member)
  | discardExpired sessionId keepId =>
    exact kept (closed .discarded (Superseded sessionId keepId world.ambient.clock) (by decide) member)
  | discard pendingId => exact kept (closed .discarded (OpenAs pendingId) (by decide) member)
  | consume pendingId =>
    obtain ⟨old, present, same⟩ := List.mem_map.mp member
    split at same
    next selected =>
      subst same
      refine ⟨old, ?_, .inr (.inl ⟨present, congrArg Op.consume selected.1.symm⟩)⟩
      exact ⟨rfl, fun _ => rfl, fun discarded => by simp [selected.2] at discarded⟩
    next => exact kept (same ▸ present)
  | store draft =>
    simp only [World.react, Pending.store] at member
    split at member
    · exact kept member
    · split at member
      · rcases List.mem_append.mp member with before | inserted
        · exact kept before
        · rw [List.mem_singleton.mp inserted] at consumed
          cases consumed
      · exact kept member
  | rememberBlockResponse pendingId response =>
    obtain ⟨old, present, same⟩ := List.mem_map.mp member
    split at same
    · subst same
      exact ⟨old, ⟨rfl, id, id⟩, .inl ⟨present, consumed⟩⟩
    · exact kept (same ▸ present)
  | consumeExpired key pendingId replyHash =>
    have updated (present : row ∈ (setStatus .consumed (Approvals.ExpiredAs pendingId world.ambient.clock)
        world.holds).rows) : ∃ old, Successor old row ∧ ((old ∈ world.holds.rows ∧ old.status = .consumed) ∨
          (old ∈ world.holds.rows ∧ Op.consumeExpired key pendingId replyHash = .consume row.pendingId) ∨
          ∃ other hash, Op.consumeExpired key pendingId replyHash = .consumeExpired other row.pendingId hash ∧
            row.expiresAt ≤ world.ambient.clock) := by
      obtain ⟨old, before, same⟩ := List.mem_map.mp present
      split at same
      next expired =>
        obtain ⟨rfl, _, late⟩ := expired
        subst same
        exact ⟨_, .refl _, .inr (.inr ⟨key, replyHash, rfl, late⟩)⟩
      next => exact kept (same ▸ before)
    simp only [World.react, Approvals.consumeExpired] at member
    split at member
    · exact kept member
    · split at member
      · exact updated member
      · exact updated member
  | claimSweep process =>
    simp only [World.react] at member
    split at member
    · exact kept member
    · exact kept member
  | _ => exact kept member

theorem step_consumed {world after : World} {event : GuardEvent} {row : PendingRequest}
    (step : World.Step world event after) (member : row ∈ after.holds.rows)
    (consumed : row.status = .consumed) :
    ∃ old, Successor old row ∧ ((old ∈ world.holds.rows ∧ old.status = .consumed) ∨
      (old ∈ world.holds.rows ∧ event.op = .consume row.pendingId) ∨
      ∃ key replyHash, event.op = .consumeExpired key row.pendingId replyHash ∧ row.expiresAt ≤ after.ambient.clock) := by
  cases step with
  | answered later =>
    rw [World.react_ambient]
    exact react_consumed member consumed
  | raised later => exact ⟨row, .refl row, .inl ⟨member, consumed⟩⟩
  | raisedAfterConsume later =>
    rw [World.react_ambient]
    exact react_consumed member consumed

/-- The row was consumed from the start, before its expiry, or by the explicit
approval of an expired hold. -/
def Released {Thread : Type} (world : World) (record : List (Thread × GuardEvent × Time))
    (row : PendingRequest) : Prop :=
  (∃ old ∈ world.holds.rows, old.pendingId = row.pendingId ∧ old.status = .consumed) ∨
  (∃ thread reply moment, (thread, ⟨.consume row.pendingId, reply⟩, moment) ∈ record ∧
    moment < row.expiresAt) ∨
  ∃ thread key replyHash reply moment,
    (thread, ⟨.consumeExpired key row.pendingId replyHash, reply⟩, moment) ∈ record ∧ row.expiresAt ≤ moment

theorem Released.extend {Thread : Type} {world : World} {record : List (Thread × GuardEvent × Time)}
    {row later : PendingRequest} (released : Released world record row) (next : Successor row later)
    (tail : List (Thread × GuardEvent × Time)) : Released world (record ++ tail) later := by
  unfold Released
  rw [next.pendingId, next.expiresAt]
  rcases released with first
    | ⟨thread, reply, moment, member, early⟩ | ⟨thread, key, hash, reply, moment, member, late⟩
  · exact .inl first
  · exact .inr (.inl ⟨thread, reply, moment, List.mem_append_left _ member, early⟩)
  · exact .inr (.inr ⟨thread, key, hash, reply, moment, List.mem_append_left _ member, late⟩)

/-- What the record of a run shows about the holds. -/
structure Clocked {Thread : Type} (start : World) (state : Timed Thread)
    (log : List (Thread × GuardEvent)) : Prop where
  tracked : Tracked state.world log
  recorded : ∀ thread event, (thread, event) ∈ log → ∃ moment, (thread, event, moment) ∈ state.record
  held : ∀ thread pendingId reply moment, (thread, ⟨.consume pendingId, reply⟩, moment) ∈ state.record →
    ∃ row ∈ state.world.holds.rows, row.pendingId = pendingId
  early : ∀ thread pendingId reply moment, (thread, ⟨.consume pendingId, reply⟩, moment) ∈ state.record →
    ∀ row ∈ state.world.holds.rows, row.pendingId = pendingId → moment < row.expiresAt
  released : ∀ row ∈ state.world.holds.rows, row.status = .consumed → Released start state.record row

section run
variable {Thread : Type} [DecidableEq Thread] {start : World} {calls : Thread → Evaluation}
  {before after : Timed Thread}
  {log : List (Thread × GuardEvent)} {thread : Thread} {event : GuardEvent}

/-- The consuming update runs before the expiry: the call saw the hold unexpired
and the clock has not crossed its expiry since. -/
theorem Clocked.consume_early (clocked : Clocked start before log)
    (uncrossed : Uncrossed thread before event after) {request : Request}
    (scope : Scoped request (Pool.history thread log) event.op) {row : PendingRequest}
    (member : row ∈ before.world.holds.rows) (asked : event.op = .consume row.pendingId) :
    after.world.ambient.clock < row.expiresAt := by
  rw [asked] at scope
  obtain ⟨hold, ⟨looked, now, read, live⟩, named⟩ := scope
  obtain ⟨_, _, found, present, next⟩ := clocked.tracked.found thread _ _ _ _ (Pool.mem_history.mp looked)
  have same : found = row := Table.eq_of_pendingId present member (next.pendingId.trans named)
  obtain ⟨moment, noted⟩ := clocked.recorded thread _ (Pool.mem_history.mp read)
  apply uncrossed row member (by rw [asked]; rfl) _ noted rfl now rfl
  rw [← same, next.expiresAt]
  exact live

theorem row_before {world after : World} (step : World.Step world event after) {row : PendingRequest}
    (member : row ∈ after.holds.rows) (known : ∃ old ∈ world.holds.rows, old.pendingId = row.pendingId) :
    ∃ old ∈ world.holds.rows, Successor old row := by
  obtain ⟨old, present, named⟩ := known
  obtain ⟨later, remains, next⟩ := step.successor present
  rw [Table.eq_of_pendingId member remains (named.symm.trans next.pendingId.symm)]
  exact ⟨old, present, next⟩

theorem Clocked.step (clocked : Clocked start before log) (step : timed thread before event after)
    (uncrossed : Uncrossed thread before event after) {request : Request}
    (scope : Scoped request (Pool.history thread log) event.op) :
    Clocked start after (log ++ [(thread, event)]) where
  tracked := clocked.tracked.step step.1
  recorded actor other member := by
    rw [step.2]
    rcases List.mem_append.mp member with earlier | last
    · obtain ⟨moment, noted⟩ := clocked.recorded actor other earlier
      exact ⟨moment, List.mem_append_left _ noted⟩
    · obtain ⟨rfl, rfl⟩ := Prod.mk.inj (List.mem_singleton.mp last)
      exact ⟨_, List.mem_append_right _ (List.mem_singleton_self _)⟩
  held actor pendingId reply moment member := by
    rw [step.2] at member
    have known : ∃ row ∈ before.world.holds.rows, row.pendingId = pendingId := by
      rcases List.mem_append.mp member with earlier | last
      · exact clocked.held actor pendingId reply moment earlier
      · obtain ⟨rfl, rfl, rfl⟩ : actor = thread ∧ (⟨.consume pendingId, reply⟩ : GuardEvent) = event ∧
          moment = after.world.ambient.clock := by simpa using last
        obtain ⟨hold, ⟨looked, _⟩, asked⟩ := scope
        obtain ⟨_, _, found, stood, next⟩ := clocked.tracked.found _ _ _ _ _ (Pool.mem_history.mp looked)
        exact ⟨found, stood, next.pendingId.trans asked⟩
    obtain ⟨row, stood, named⟩ := known
    obtain ⟨later, remains, next⟩ := step.1.successor stood
    exact ⟨later, remains, next.pendingId.trans named⟩
  early actor pendingId reply moment member row present same := by
    rw [step.2] at member
    rcases List.mem_append.mp member with earlier | last
    · obtain ⟨old, stood, next⟩ :=
        row_before step.1 present (same ▸ clocked.held actor pendingId reply moment earlier)
      rw [next.expiresAt]
      exact clocked.early actor pendingId reply moment earlier old stood (next.pendingId.symm.trans same)
    · obtain ⟨rfl, rfl, rfl⟩ : actor = thread ∧ (⟨.consume pendingId, reply⟩ : GuardEvent) = event ∧
        moment = after.world.ambient.clock := by simpa using last
      have ⟨hold, ⟨looked, _⟩, asked⟩ := scope
      obtain ⟨_, _, found, stood, next⟩ := clocked.tracked.found _ _ _ _ _ (Pool.mem_history.mp looked)
      obtain ⟨old, stood, later⟩ :=
        row_before step.1 present ⟨found, stood, next.pendingId.trans (asked.trans same.symm)⟩
      rw [later.expiresAt]
      exact clocked.consume_early uncrossed scope stood (by rw [← later.pendingId, same])
  released row present consumed := by
    rw [step.2]
    obtain ⟨old, next, ⟨stood, already⟩ | ⟨stood, asked⟩ | ⟨key, hash, asked, late⟩⟩ :=
      step_consumed step.1 present consumed
    · exact (clocked.released old stood already).extend next _
    · obtain ⟨op, reply⟩ := event
      obtain rfl := asked
      refine .inr (.inl ⟨thread, reply, _, List.mem_append_right _ (List.mem_singleton_self _), ?_⟩)
      rw [next.expiresAt]
      exact clocked.consume_early uncrossed scope stood (by rw [next.pendingId])
    · obtain ⟨op, reply⟩ := event
      obtain rfl := asked
      exact .inr (.inr ⟨thread, key, hash, reply, _,
        List.mem_append_right _ (List.mem_singleton_self _), late⟩)

end run

variable {Thread : Type} [DecidableEq Thread]

theorem reaches_clocked {world : World} {calls : Thread → Evaluation} {pool : TimedPool Thread}
    (reached : Pool.Reaches (fun thread before event after => timed thread before event after ∧
      Uncrossed thread before event after) (timedEvaluations world calls) pool) :
    Clocked world pool.world pool.log := by
  apply reached.invariant_of_contract (Clocked world) (fun thread => evaluate_stays _ (calls thread).cfg _)
  · refine ⟨⟨?_, ?_, ?_⟩, ?_, ?_, ?_, fun row member consumed => .inl ⟨row, member, rfl, consumed⟩⟩
    all_goals simp [timedEvaluations, Pool.init]
  · intro before after log thread event clocked scope step
    exact clocked.step step.1 step.2 scope

/-- In every run in which the clock does not cross the expiry of a hold between a
call's reading and its consuming update, every replay was consumed before the
expiry, and a hold past its expiry is consumed only by the explicit approval. -/
theorem expired_never_replayed (world : World) (calls : Thread → Evaluation) {pool : TimedPool Thread}
    (reached : Pool.Reaches (fun thread before event after => timed thread before event after ∧
      Uncrossed thread before event after) (timedEvaluations world calls) pool) :
    ReplayedInTime pool ∧
    ∀ row ∈ pool.world.world.holds.rows, row.status = .consumed → Released world pool.world.record row := by
  have clocked := reaches_clocked reached
  refine ⟨fun thread outcome finished replayed => ?_, clocked.released⟩
  have accounted := reached.result (fun thread => evaluate_keeps _ _ _) finished
  obtain ⟨hold, consumed, _, taken, sent, named, _⟩ := accounted.replayed replayed
  obtain ⟨moment, noted⟩ := clocked.recorded thread _ (Pool.mem_history.mp taken)
  obtain ⟨same, row, present, next⟩ := clocked.tracked.taken thread _ _ (Pool.mem_history.mp taken)
  refine ⟨hold.pendingId, consumed, moment, noted, named, sent, ?_⟩
  rw [← next.expiresAt]
  exact clocked.early thread _ _ moment noted row present (next.pendingId.trans same)

/-! One approval of a hold that expires after ten minutes. -/

/-- The answer after some time, noted in the record. -/
def strike (elapsed : Nat) (state : Timed Unit) (op : Op) : Reply op × Timed Unit :=
  let answer := World.turn elapsed state.world op
  (answer.1, ⟨answer.2, state.record ++ [((), ⟨op, answer.1⟩, answer.2.ambient.clock)]⟩)

theorem strike_timed (thread : Unit) (elapsed : Nat) (state : Timed Unit) (op : Op) :
    timed thread state ⟨op, (strike elapsed state op).1⟩ (strike elapsed state op).2 :=
  ⟨World.turn_step elapsed state.world op, rfl⟩

def approving (pause : Nat) : TimedPool Unit :=
  Pool.follow strike (List.replicate 8 ((), 1) ++ [((), pause)])
    (timedEvaluations HoldRelease.heldWorld fun _ => HoldRelease.approval)

theorem expired_never_replayed_prompt :
    (approving 1).threads () =
      .done (.ok (replayOutcome { HoldRelease.approvedHold with status := .consumed } none)) ∧
    ReplayedInTime (approving 1) :=
  ⟨by with_unfolding_all rfl, (expired_never_replayed HoldRelease.heldWorld (fun _ => HoldRelease.approval)
    (Pool.follow_reaches_where strike_timed (by decide +kernel))).1⟩

def taken : GuardEvent → Option PendingRequest
  | ⟨.consume _, .ok row⟩ => row
  | _ => none

/-- Ten minutes pass between the policy and the update: the expired hold is replayed. -/
theorem expired_hold_replayed :
    ¬∀ (world : World) (calls : Unit → Evaluation) (pool : TimedPool Unit),
      Pool.Reaches timed (timedEvaluations world calls) pool → ReplayedInTime pool := by
  intro always
  have inTime := always HoldRelease.heldWorld (fun _ => HoldRelease.approval) (approving 600000000)
    (Pool.follow_reaches strike_timed _ _)
  have replayed : (approving 600000000).threads () =
      .done (.ok (replayOutcome { HoldRelease.approvedHold with status := .consumed } none)) := by
    with_unfolding_all rfl
  obtain ⟨pendingId, row, moment, member, _, _, early⟩ := inTime () _ replayed rfl
  have late : ∀ entry ∈ (approving 600000000).world.record, ∀ row ∈ taken entry.2.1,
      row.expiresAt ≤ entry.2.2 := by
    decide +kernel
  exact absurd early (not_lt.mpr (late _ member row rfl))

end TokenPak.SpendGuard.ExpiredReplay
