import TokenPak.Library.Program
import TokenPak.SpendGuard.Stores

/-! The operations an evaluation performs on shared state, each atomic, and the
world that answers them. Time passes and usage readings change only between
operations; any operation may also raise and then leaves the stores as they were. -/

namespace TokenPak.SpendGuard
open Library RollingCaps

inductive Op where
  | now
  | claimSweep (process : Nat)
  | expireOld
  | latestHold (sessionId model : String) (headers : Headers)
  | discardExpired (sessionId keepId : String)
  | discard (pendingId : String)
  | consume (pendingId : String)
  | store (draft : Pending.Draft)
  | rememberBlockResponse (pendingId : String) (response : Response)
  | recentBlockByHash (requestHash : String) (within : Time) (sessionId : String)
  | openApprovals
  | create (key : ScopeKey) (tip : TIPDirective) (risk : RiskEstimate)
  | revoke (key : ScopeKey)
  | redeem (key : ScopeKey) (risk : RiskEstimate)
  | replyUsed (key : ScopeKey) (replyHash : String)
  | rememberReply (key : ScopeKey) (replyHash : String)
  | consumeExpired (key : ScopeKey) (pendingId replyHash : String)
  | recordSessionAgent (sessionId agentId : String)
  | checkRollingCapsAndAdmit (process : Nat) (admission : Admission)
  | settlePendingSpend (process : Nat) (ticket : String)
  | sessionCumulativeCost (sessionId : String) (windowSeconds : Int)

abbrev Answer : Op → Type
  | .now => Time
  | .claimSweep _ => Bool
  | .expireOld => Nat
  | .latestHold .. => Option PendingRequest
  | .discardExpired .. => Unit
  | .discard _ => Bool
  | .consume _ => Option PendingRequest
  | .store _ => PendingRequest
  | .rememberBlockResponse .. => Unit
  | .recentBlockByHash .. => Option PendingRequest
  | .openApprovals => Unit
  | .create .. => Unit
  | .revoke _ => Unit
  | .redeem .. => Bool
  | .replyUsed .. => Bool
  | .rememberReply .. => Unit
  | .consumeExpired .. => Bool
  | .recordSessionAgent .. => Unit
  | .checkRollingCapsAndAdmit .. => Option CapBreach × Option String
  | .settlePendingSpend .. => Bool
  | .sessionCumulativeCost .. => ℚ

abbrev Reply (op : Op) : Type := Except Fault (Answer op)

abbrev GuardEvent := Event Op Reply

/-- Computations of the guard: operations that may raise. -/
abbrev Guard := Raising Op Answer Fault

abbrev call (op : Op) : Guard (Answer op) := perform op

/-- A call inside `try`: the caller sees the exception. -/
abbrev tryCall (op : Op) : Guard (Reply op) := attempt op

/-- What the environment decides: the clock, the usage that the database records,
the totals that each process has cached for an agent and a window, and the random
identifiers drawn next. Checks fill the cache and commits of the monitor clear it;
here it may hold anything. -/
structure Ambient where
  clock : Time
  usage : String → Int → Option RollingUsage
  cached : Nat → String → Int → Option (Time × RollingUsage)
  sessionCost : String → Int → ℚ
  pendingId : String
  ticket : String

/-- The usage that a check of a process reads. -/
def Ambient.reading (ambient : Ambient) (process : Nat) (admission : Admission) : Option RollingUsage :=
  computeRollingUsage (ambient.cached process admission.agentId admission.config.windowSeconds) ambient.clock
    (ambient.usage admission.agentId admission.config.windowSeconds)

structure World where
  ambient : Ambient
  holds : Pending.Table
  grants : Approvals.Grants
  replies : Approvals.Replies
  inflight : Nat → List Ticket
  lastSweep : Nat → Time

def sweepInterval : Time := seconds 300

namespace World

/-- Answer one operation in the present world. -/
def react (world : World) : (op : Op) → Reply op × World
  | .now => (.ok world.ambient.clock, world)
  | .claimSweep process =>
    if world.ambient.clock - world.lastSweep process < sweepInterval then (.ok false, world)
    else (.ok true, { world with lastSweep := Function.update world.lastSweep process world.ambient.clock })
  | .expireOld =>
    let (count, holds) := Pending.expireOld world.ambient.clock world.holds
    (.ok count, { world with holds })
  | .latestHold sessionId model headers =>
      (.ok (Pending.latestHold sessionId model headers world.holds), world)
  | .discardExpired sessionId keepId =>
    (.ok (), { world with holds := Pending.discardExpired sessionId keepId world.ambient.clock world.holds })
  | .discard pendingId =>
    let (changed, holds) := Pending.discard pendingId world.holds
    (.ok changed, { world with holds })
  | .consume pendingId =>
    let (row, holds) := Pending.consume pendingId world.holds
    (.ok row, { world with holds })
  | .store draft =>
    let (row, holds) := Pending.store draft world.ambient.pendingId world.ambient.clock world.holds
    (row, { world with holds })
  | .rememberBlockResponse pendingId response =>
    (.ok (), { world with holds := Pending.rememberBlockResponse pendingId response world.holds })
  | .recentBlockByHash requestHash within sessionId =>
    (.ok (Pending.recentBlockByHash requestHash within sessionId world.ambient.clock world.holds), world)
  | .openApprovals => (.ok (), world)
  | .create key tip risk =>
    (.ok (), { world with grants := Approvals.create key tip risk world.ambient.clock world.grants })
  | .revoke key => (.ok (), { world with grants := Approvals.revoke key world.grants })
  | .redeem key risk =>
    let (redeemed, grants) := Approvals.redeem key risk world.ambient.clock world.grants
    (.ok redeemed, { world with grants })
  | .replyUsed key replyHash => (.ok (decide ((key, replyHash) ∈ world.replies)), world)
  | .rememberReply key replyHash =>
    (.ok (), { world with replies := Approvals.rememberReply key replyHash world.replies })
  | .consumeExpired key pendingId replyHash =>
    let (consumed, holds, replies) :=
      Approvals.consumeExpired key pendingId replyHash world.ambient.clock world.holds world.replies
    (.ok consumed, { world with holds, replies })
  | .recordSessionAgent .. => (.ok (), world)
  | .checkRollingCapsAndAdmit process admission =>
    let (answer, inflight) := checkRollingCapsAndAdmit admission (world.ambient.reading process admission)
      world.ambient.ticket world.ambient.clock (world.inflight process)
    (.ok answer, { world with inflight := Function.update world.inflight process inflight })
  | .settlePendingSpend process ticket =>
    let (settled, inflight) := settlePendingSpend ticket (world.inflight process)
    (.ok settled, { world with inflight := Function.update world.inflight process inflight })
  | .sessionCumulativeCost sessionId window => (.ok (world.ambient.sessionCost sessionId window), world)

/-- The environment moves between two operations; time never runs backwards. -/
def drift (world : World) (ambient : Ambient) : World := { world with ambient }

/-- One operation of one caller. `consume` reads its row back after the commit, so
an exception there may leave the row consumed. -/
inductive Step : World → GuardEvent → World → Prop
  | answered {world : World} {ambient : Ambient} {op : Op} (later : world.ambient.clock ≤ ambient.clock) :
      Step world ⟨op, ((world.drift ambient).react op).1⟩ ((world.drift ambient).react op).2
  | raised {world : World} {ambient : Ambient} {op : Op} {fault : Fault} (later : world.ambient.clock ≤ ambient.clock) :
      Step world ⟨op, .error fault⟩ (world.drift ambient)
  | raisedAfterConsume {world : World} {ambient : Ambient} {pendingId : String} {fault : Fault}
      (later : world.ambient.clock ≤ ambient.clock) :
      Step world ⟨.consume pendingId, .error fault⟩ ((world.drift ambient).react (.consume pendingId)).2

theorem react_ambient (world : World) (op : Op) : (world.react op).2.ambient = world.ambient := by
  cases op with
  | claimSweep process =>
    simp only [react]
    split <;> rfl
  | _ => rfl

theorem Step.clock_le {world after : World} {event : GuardEvent} (step : Step world event after) :
    world.ambient.clock ≤ after.ambient.clock := by
  cases step with
  | answered later => rw [react_ambient]; exact later
  | raised later => exact later
  | raisedAfterConsume later => rw [react_ambient]; exact later

theorem Step.answer {world after : World} {op : Op} {answer : Answer op}
    (step : Step world ⟨op, .ok answer⟩ after) :
    ∃ ambient : Ambient, world.ambient.clock ≤ ambient.clock ∧
      ((world.drift ambient).react op).1 = .ok answer ∧
      after = ((world.drift ambient).react op).2 := by
  generalize asked : (⟨op, .ok answer⟩ : GuardEvent) = event at step
  cases step with
  | @answered ambient op later =>
    obtain ⟨rfl, answer⟩ := Event.mk.inj asked
    exact ⟨ambient, later, (eq_of_heq answer).symm, rfl⟩
  | raised later => obtain ⟨rfl, answer⟩ := Event.mk.inj asked; cases eq_of_heq answer
  | raisedAfterConsume later => obtain ⟨rfl, answer⟩ := Event.mk.inj asked; cases eq_of_heq answer

/-- Answer an operation after some time has passed and nothing else has changed. -/
def turn (elapsed : Nat) (world : World) (op : Op) : Reply op × World :=
  (world.drift { world.ambient with clock := world.ambient.clock + elapsed }).react op

theorem turn_step (elapsed : Nat) (world : World) (op : Op) :
    Step world ⟨op, (turn elapsed world op).1⟩ (turn elapsed world op).2 :=
  .answered (Int.le_add_of_nonneg_right (Int.natCast_nonneg elapsed))

end World
end TokenPak.SpendGuard
