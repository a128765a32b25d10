import TokenPak.Proofs.EvaluateContract
import TokenPak.Proofs.HoldTable

/-! The hard bands and the bytes that leave the guard. Every path but one sends
bytes whose own estimate went through the policy; the exception is a cancel
directive that finds nothing to cancel, whose request is forwarded unjudged. -/

namespace TokenPak.SpendGuard.HardStop
open Library EvaluateContract Pending Policy

section bytes
variable (analysis : Analysis) (cfg : SpendGuardConfig) (request : Request)

/-- These bytes have an estimate for which the policy never returns a hard block,
whatever the directive, the session and the approvals. -/
def NotHardBlocked (body : Bytes) : Prop :=
  ∃ est, analysis.estimateAnchored body request.model request.sessionId = .ok est ∧
    ∀ tip running contextApproved requestApproved,
      (decide est cfg tip running (maxContextOf analysis request) contextApproved requestApproved).decision ≠ .hardBlock

theorem notHardBlocked_iff (body : Bytes) :
    NotHardBlocked analysis cfg request body ↔ Sendable analysis cfg request body := by
  refine exists_congr fun est => and_congr_right fun _ => ?_
  simp only [ne_eq, decide_hardBlock_iff]
  simp

/-- Every call that sends does so within the hard bands. -/
def HardStopHolds (world : World) : Prop :=
  ∀ (pool : GuardPool Unit) (outcome : GuardOutcome),
    Pool.Reaches (fun _ => World.Step) (single analysis cfg request world) pool →
    pool.threads () = .done (.ok outcome) → outcome.kind.sends = true →
    ∃ body, outcome.body = some body ∧ NotHardBlocked analysis cfg request body

/-- A cancel directive without a hold to cancel, on a request that is over a hard
band or has no estimate. -/
def IdleCancel (world : World) : Prop :=
  ∃ directive ∈ directiveOf analysis request.body, directive.1.cancel = true ∧
    latestHold request.sessionId request.model request.headers world.holds = none ∧
    latestHold request.sessionId request.model [] world.holds = none ∧
    ¬NotHardBlocked analysis cfg request directive.2

end bytes

variable {analysis : Analysis} {cfg : SpendGuardConfig} {request : Request} {world after : World}

/-- A hold that was read and a hold that was consumed under one identifier carry
the same bytes. -/
structure BytesFixed {Thread : Type} (world : World) (log : List (Thread × GuardEvent)) : Prop where
  read : ∀ thread sessionId model headers hold,
    (thread, ⟨.latestHold sessionId model headers, .ok (some hold)⟩) ∈ log →
    ∃ row ∈ world.holds.rows, row.pendingId = hold.pendingId ∧ row.rawRequestBlob = hold.rawRequestBlob
  taken : ∀ thread id hold, (thread, ⟨.consume id, .ok (some hold)⟩) ∈ log →
    ∃ row ∈ world.holds.rows, row.pendingId = id ∧ row.rawRequestBlob = hold.rawRequestBlob

theorem BytesFixed.step {Thread : Type} {log : List (Thread × GuardEvent)} {thread : Thread}
    {event : GuardEvent}
    (fixed : BytesFixed world log) (step : World.Step world event after) :
    BytesFixed after (log ++ [(thread, event)]) := by
  have carried {id : String} {blob : Bytes}
      (found : ∃ row ∈ world.holds.rows, row.pendingId = id ∧ row.rawRequestBlob = blob) :
      ∃ row ∈ after.holds.rows, row.pendingId = id ∧ row.rawRequestBlob = blob := by
    obtain ⟨row, member, named, bytes⟩ := found
    obtain ⟨later, present, next⟩ := step.successor member
    exact ⟨later, present, next.pendingId.trans named, next.rawRequestBlob.trans bytes⟩
  constructor
  · intro actor sessionId model headers hold member
    obtain before | last := List.mem_append.mp member
    · exact carried (fixed.read actor sessionId model headers hold before)
    · obtain ⟨-, rfl⟩ := Prod.mk.inj (List.mem_singleton.mp last)
      obtain ⟨ambient, _, answer, rfl⟩ := step.answer
      exact ⟨hold, (latestHold_open (Except.ok.inj answer)).1, rfl, rfl⟩
  · intro actor id hold member
    obtain before | last := List.mem_append.mp member
    · exact carried (fixed.taken actor id hold before)
    · obtain ⟨-, rfl⟩ := Prod.mk.inj (List.mem_singleton.mp last)
      obtain ⟨ambient, _, answer, rfl⟩ := step.answer
      obtain ⟨_, _, named, present⟩ := World.consume_answered answer
      exact ⟨hold, present, named, rfl⟩

theorem reaches_bytesFixed {Thread α : Type} [DecidableEq Thread]
    {start pool : Pool Thread World Op Reply α} (fresh : start.log = [])
    (reached : Pool.Reaches (fun _ => World.Step) start pool) : BytesFixed pool.world pool.log :=
  reached.invariant _ ⟨by simp [fresh], by simp [fresh]⟩ fun _ _ _ _ _ fixed step => fixed.step step

/-- The bytes that a replay returns are the bytes that were estimated. -/
theorem BytesFixed.same {Thread : Type} {log : List (Thread × GuardEvent)} (fixed : BytesFixed world log)
    {reader taker : Thread} {sessionId model : String} {headers : Headers} {hold consumed : PendingRequest}
    (read : (reader, ⟨.latestHold sessionId model headers, .ok (some hold)⟩) ∈ log)
    (taken : (taker, ⟨.consume hold.pendingId, .ok (some consumed)⟩) ∈ log) :
    consumed.rawRequestBlob = hold.rawRequestBlob := by
  obtain ⟨row, member, named, bytes⟩ := fixed.read _ _ _ _ _ read
  obtain ⟨other, present, named', bytes'⟩ := fixed.taken _ _ _ taken
  rw [← bytes, ← bytes', Table.eq_of_pendingId present member (named'.trans named.symm)]

/-- Operations that cannot change the held rows. -/
def Still : Op → Prop
  | .openApprovals | .revoke _ | .latestHold .. => True
  | _ => False

/-- Lookups before the first change of the rows are answered from the rows the
call started with. -/
structure FirstLook (start world : World) (past : List GuardEvent) : Prop where
  unchanged : (∀ event ∈ past, Still event.op) → world.holds = start.holds
  answered : ∀ earlier sessionId model headers answer rest,
    past = earlier ++ ⟨.latestHold sessionId model headers, .ok answer⟩ :: rest →
      (∀ event ∈ earlier, Still event.op) →
    answer = latestHold sessionId model headers start.holds

theorem still_holds {event : GuardEvent} (step : World.Step world event after) (still : Still event.op) :
    after.holds = world.holds := by
  cases step with
  | @answered ambient op later => cases op <;> first | rfl | exact still.elim
  | raised later => rfl
  | raisedAfterConsume later => exact still.elim

theorem FirstLook.step {start : World} {past : List GuardEvent} {event : GuardEvent}
    (look : FirstLook start world past)
    (step : World.Step world event after) : FirstLook start after (past ++ [event]) where
  unchanged still := by
    rw [still_holds step (still event (by simp))]
    exact look.unchanged fun event member => still event (List.mem_append_left _ member)
  answered earlier sessionId model headers answer rest same still := by
    obtain rfl | ⟨rest, last, rfl⟩ := List.eq_nil_or_concat' rest
    · obtain ⟨rfl, final⟩ := List.append_inj' same rfl
      obtain rfl := List.singleton_inj.mp final
      obtain ⟨ambient, _, answered, _⟩ := step.answer
      rw [← look.unchanged still]
      exact (Except.ok.inj answered).symm
    · rw [← List.cons_append, ← List.append_assoc] at same
      exact look.answered earlier sessionId model headers answer rest (List.append_inj' same rfl).1 still

theorem reaches_firstLook {pool : GuardPool Unit}
    (reached : Pool.Reaches (fun _ => World.Step) (single analysis cfg request world) pool) :
    FirstLook world pool.world (pool.log.map Prod.snd) := by
  refine reached.invariant (fun after log => FirstLook world after (log.map Prod.snd)) ?_ ?_
  · refine ⟨fun _ => rfl, fun earlier _ _ _ _ rest same => ?_⟩
    cases List.append_eq_nil_iff.mp same.symm |>.2
  · intro before after log thread event look step
    rw [List.map_append]
    exact look.step step

/-- Run alone, an idle cancel directive forwards the stripped request. -/
theorem idle_cancel_forwards {tip : TIPDirective} {stripped : Bytes} (enabled : cfg.enabled = true)
    (parsed : directiveOf analysis request.body = some (tip, stripped)) (cancels : tip.cancel = true)
    (absent : latestHold request.sessionId request.model request.headers world.holds = none)
    (unscoped : latestHold request.sessionId request.model [] world.holds = none) :
    (Program.execute (World.turn 0) (evaluate analysis cfg request) world).1 =
      .ok { kind := .forwardModified, body := some stripped } := by
  have program : evaluate analysis cfg request = tipCancel request stripped := by
    simp [evaluate, enabled, parsed, cancels]
  rw [program, tipCancel, execute_perform _ rfl, execute_perform _ rfl,
    execute_perform _ (congrArg Except.ok absent), execute_perform _ (congrArg Except.ok unscoped), execute_perform _ rfl]
  rfl

/-- The hard stop holds for a call exactly when it is not an idle cancel of a
request that the policy would have hard-blocked. -/
theorem hard_stop_iff (analysis : Analysis) (cfg : SpendGuardConfig) (request : Request) (world : World)
    (enabled : cfg.enabled = true) :
    HardStopHolds analysis cfg request world ↔ ¬IdleCancel analysis cfg request world := by
  constructor
  · rintro holds ⟨⟨tip, stripped⟩, parsed, cancels, absent, unscoped, hard⟩
    obtain ⟨final, reached, finished⟩ := Pool.execute_reaches (fun _ => World.Step)
      (fun _ => World.turn_step 0) (single analysis cfg request world) ()
    rw [show (single analysis cfg request world).threads () = evaluate analysis cfg request from rfl,
      show (single analysis cfg request world).world = world from rfl,
      idle_cancel_forwards enabled parsed cancels absent unscoped] at finished
    obtain ⟨body, sent, fine⟩ := holds final _ reached finished rfl
    obtain rfl : stripped = body := Option.some.inj sent
    exact hard fine
  · intro busy pool outcome reached finished sends
    have accounted := reached.result (fun _ => evaluate_keeps analysis cfg request) finished
    have forwards (kind : outcome.kind = .forward ∨ outcome.kind = .forwardModified) :
        ∃ body, outcome.body = some body ∧ NotHardBlocked analysis cfg request body := by
      obtain ⟨body, sent, sendable⟩ | ⟨⟨directive, parsed, cancels, sent⟩, rest, looked⟩ :=
        accounted.forwarded enabled kind
      · exact ⟨body, sent, (notHardBlocked_iff ..).mpr sendable⟩
      · rw [Pool.history_unit] at looked
        refine ⟨directive.2, sent, by_contra fun hard => busy ⟨directive, parsed, cancels, ?_, ?_, hard⟩⟩
        · exact ((reaches_firstLook reached).answered [⟨.openApprovals, .ok ()⟩,
            ⟨.revoke request.approvalKey, .ok ()⟩]
            _ _ _ _ _ looked (by simp [Still])).symm
        · exact ((reaches_firstLook reached).answered [⟨.openApprovals, .ok ()⟩,
            ⟨.revoke request.approvalKey, .ok ()⟩,
            ⟨.latestHold request.sessionId request.model request.headers, .ok none⟩] _ _ _ _ _ looked
            (by simp [Still])).symm
    cases kind : outcome.kind with
    | forward => exact forwards (.inl kind)
    | forwardModified => exact forwards (.inr kind)
    | replay =>
      obtain ⟨hold, consumed, read, taken, sent, _, sendable⟩ := accounted.replayed kind
      have same :=
        (reaches_bytesFixed rfl reached).same (Pool.mem_history.mp read) (Pool.mem_history.mp taken)
      exact ⟨consumed.rawRequestBlob, sent, (notHardBlocked_iff ..).mpr (same ▸ sendable)⟩
    | _ => simp [kind, OutcomeKind.sends] at sends

/-! A request of 250k tokens for a window of 200k, behind a cancel directive. -/

def oversized (tip : Option TIPDirective) : Analysis :=
  { parseAndStripTipHeader := fun body => .ok (tip.map fun tip => (tip, body.drop 1)), parseIntent := fun _ => .ambiguous
    hasHumanText := fun _ => true, approvalFingerprint := fun _ => "reply", hashRequest := fun _ _ => "h"
    estimateAnchored := fun _ model _ => .ok ⟨model, 0, 250000, 250000, 0, 3, 0⟩
    getModelMaxContext := fun _ => .ok (some 200000) }

def oversizedRequest : Request := { body := [1, 2], model := "m", sessionId := "s", headers := [] }

def noHolds : World :=
  { ambient := { clock := 0, usage := fun _ _ => none, cached := fun _ _ _ => none, sessionCost := fun _ _ => 0
                 pendingId := "tpg_1", ticket := "adm_1" }
    holds := .empty, grants := fun _ => none, replies := [], inflight := fun _ => [], lastSweep := fun _ => 0 }

theorem hard_stop_iff_undirected : HardStopHolds (oversized none) {} oversizedRequest noHolds :=
  (hard_stop_iff (oversized none) {} oversizedRequest noHolds rfl).mpr fun ⟨_, parsed, _⟩ => nomatch parsed

theorem idle_cancel_bypasses_hard_stop :
    ¬∀ (analysis : Analysis) (cfg : SpendGuardConfig) (request : Request)
    (world : World), cfg.enabled = true →
      HardStopHolds analysis cfg request world := by
  intro always
  have holds := always (oversized (some { cancel := true })) {} oversizedRequest noHolds rfl
  obtain ⟨final, reached, finished⟩ := Pool.execute_reaches (fun _ => World.Step)
    (fun _ => World.turn_step 0) (single (oversized (some { cancel := true })) {} oversizedRequest noHolds) ()
  obtain ⟨body, sent, est, estimated, soft⟩ :=
    holds final { kind := .forwardModified, body := some [2] } reached
    (finished.trans (by with_unfolding_all rfl)) rfl
  obtain rfl := Except.ok.inj estimated
  exact soft none 0 false false (by decide +kernel)

end TokenPak.SpendGuard.HardStop
