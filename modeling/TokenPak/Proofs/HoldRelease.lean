import TokenPak.Proofs.EvaluateContract
import TokenPak.Proofs.HoldTable

/-! A held request leaves the guard at most once. The table settles each row
once; the contract of an evaluation ties every replay to its own transition. -/

namespace TokenPak.SpendGuard.HoldRelease
open Library

/-- The event hands the held bytes out, or consumes the hold for a late approval. -/
def releases (pendingId : String) : GuardEvent → Bool
  | ⟨.consume id, .ok (some _)⟩ => id = pendingId
  | ⟨.consumeExpired _ id _, .ok true⟩ => id = pendingId
  | _ => false

def consumesExpired (pendingId : String) : GuardEvent → Bool
  | ⟨.consumeExpired _ id _, .ok true⟩ => id = pendingId
  | _ => false

variable {Thread : Type} {world after : World} {event : GuardEvent} {pendingId : String}

/-- A release takes an open row and leaves it consumed. -/
theorem releases_step (step : World.Step world event after) (released : releases pendingId event = true) :
    (world.HasStatus pendingId .pending ∨ world.HasStatus pendingId .expired) ∧
      after.HasStatus pendingId .consumed := by
  cases step with
  | @answered ambient op later =>
    cases op with
    | consume id =>
      cases answer : ((world.drift ambient).react (.consume id)).1 with
      | error fault => simp [answer, releases] at released
      | ok row =>
        cases row with
        | none => simp [answer, releases] at released
        | some row =>
          obtain rfl : id = pendingId := by simpa [answer, releases] using released
          obtain ⟨pending, consumed, _⟩ := World.consume_answered answer
          exact ⟨.inl pending, consumed⟩
    | consumeExpired key id replyHash =>
      cases answer : ((world.drift ambient).react (.consumeExpired key id replyHash)).1 with
      | error fault => simp [answer, releases] at released
      | ok done =>
        cases done with
        | false => simp [answer, releases] at released
        | true =>
          obtain rfl : id = pendingId := by simpa [answer, releases] using released
          obtain ⟨⟨row, member, named, open_, _⟩, consumed⟩ := World.consumeExpired_answered answer
          exact ⟨open_.imp (fun state => ⟨row, member, named, state⟩) (fun state =>
            ⟨row, member, named, state⟩), consumed⟩
    | _ => simp [releases] at released
  | raised later => simp [releases] at released
  | raisedAfterConsume later => simp [releases] at released

/-- What a run keeps: one release per hold, and released holds stay consumed. -/
structure Once (world : World) (log : List (Thread × GuardEvent)) : Prop where
  single : ∀ pendingId, (log.filter fun entry => releases pendingId entry.2).length ≤ 1
  settled : ∀ pendingId, ∀ entry ∈ log, releases pendingId entry.2 = true →
    world.HasStatus pendingId .consumed

theorem Once.step {log : List (Thread × GuardEvent)} (once : Once world log) (thread : Thread)
    (step : World.Step world event after) : Once after (log ++ [(thread, event)]) where
  single pendingId := by
    rw [List.filter_append, List.length_append]
    cases released : releases pendingId event with
    | false => simpa [released] using once.single pendingId
    | true =>
      have unreleased : log.filter (fun entry => releases pendingId entry.2) = [] := by
        refine List.filter_eq_nil_iff.mpr fun entry member earlier => ?_
        have consumed := once.settled pendingId entry member earlier
        obtain pending | expired := (releases_step step released).1
        · cases consumed.unique pending
        · cases consumed.unique expired
      simp [unreleased, released]
  settled pendingId entry member released := by
    obtain before | last := List.mem_append.mp member
    · exact (once.settled pendingId entry before released).consumed_step step
    · rw [List.mem_singleton.mp last] at released
      exact (releases_step step released).2

private theorem two_entries {log : List (Thread × GuardEvent)} {selects : GuardEvent → Bool}
    {first second : Thread}
    {event other : GuardEvent} (member : (first, event) ∈ log) (present : (second, other) ∈ log)
    (selected : selects event = true) (kept : selects other = true)
    (single : (log.filter fun entry => selects entry.2).length ≤ 1) : first = second ∧ event = other := by
  have inside : (first, event) ∈ log.filter fun entry => selects entry.2 :=
    List.mem_filter.mpr ⟨member, selected⟩
  have beside : (second, other) ∈ log.filter fun entry => selects entry.2 :=
    List.mem_filter.mpr ⟨present, kept⟩
  generalize log.filter (fun entry => selects entry.2) = found at inside beside single
  obtain _ | ⟨entry, _ | ⟨next, rest⟩⟩ := found
  · cases inside
  · rw [List.mem_singleton] at inside beside
    exact Prod.mk.inj (inside.trans beside.symm)
  · simp at single

variable [DecidableEq Thread]

theorem reaches_once {start pool : GuardPool Thread} (fresh : start.log = [])
    (reached : Pool.Reaches (fun _ => World.Step) start pool) : Once pool.world pool.log :=
  reached.invariant _ ⟨by simp [fresh], by simp [fresh]⟩ fun _ _ _ thread _ once step => once.step thread step

theorem consume_names {start pool : GuardPool Thread} (fresh : start.log = [])
    (reached : Pool.Reaches (fun _ => World.Step) start pool) :
    ∀ thread id row, (thread, ⟨.consume id, .ok (some row)⟩) ∈ pool.log → row.pendingId = id := by
  refine reached.invariant (fun _ log => ∀ thread id row,
    (thread, ⟨.consume id, .ok (some row)⟩) ∈ log → row.pendingId = id) (by simp [fresh]) ?_
  intro world after log actor event known step thread id row member
  obtain before | last := List.mem_append.mp member
  · exact known thread id row before
  · obtain ⟨-, rfl⟩ := Prod.mk.inj (List.mem_singleton.mp last)
    obtain ⟨ambient, _, answer, _⟩ := step.answer
    exact (World.consume_answered answer).2.2.1

/-- A replay is backed by a release in the log of its own thread. -/
theorem replay_released {calls : Thread → Evaluation} {pool : GuardPool Thread}
    (reached : Pool.Reaches (fun _ => World.Step) (evaluations world calls) pool) {thread : Thread}
    {outcome : GuardOutcome} (finished : pool.threads thread = .done (.ok outcome))
    (replayed : outcome.kind = .replay)
    (named : outcome.pendingId = some pendingId) :
    ∃ row, (thread, ⟨.consume pendingId, .ok (some row)⟩) ∈ pool.log := by
  have accounted := reached.result (fun thread => EvaluateContract.evaluate_keeps _ _ _) finished
  obtain ⟨hold, consumed, _, taken, _, same, _⟩ := accounted.replayed replayed
  have logged := Pool.mem_history.mp taken
  have names := consume_names rfl reached _ _ _ logged
  obtain rfl : consumed.pendingId = pendingId := by simpa [same] using named
  exact ⟨consumed, names ▸ logged⟩

/-- Over any interleaving of evaluations a hold is replayed by at most one call
and consumed by at most one late approval, and never by both. -/
theorem hold_released_once (world : World) (calls : Thread → Evaluation) {pool : GuardPool Thread}
    (reached : Pool.Reaches (fun _ => World.Step) (evaluations world calls) pool) (pendingId : String) :
    (∀ first second outcome other, pool.threads first = .done (.ok outcome) → pool.threads second = .done (.ok other) →
      outcome.kind = .replay → other.kind = .replay → outcome.pendingId = some pendingId →
      other.pendingId = some pendingId → first = second) ∧
    (pool.log.filter fun entry => consumesExpired pendingId entry.2).length ≤ 1 ∧
    ∀ thread outcome, pool.threads thread = .done (.ok outcome) → outcome.kind = .replay →
      outcome.pendingId = some pendingId →
          (pool.log.filter fun entry => consumesExpired pendingId entry.2) = [] := by
  have once := reaches_once rfl reached
  have single := once.single pendingId
  have expired_releases (event : GuardEvent) (consumed : consumesExpired pendingId event = true) :
      releases pendingId event = true := by
    unfold consumesExpired at consumed
    split at consumed
    · exact consumed
    · cases consumed
  refine ⟨?_, ?_, ?_⟩
  · intro first second outcome other finished ended replayed replayed' named named'
    obtain ⟨row, released⟩ := replay_released reached finished replayed named
    obtain ⟨row', released'⟩ := replay_released reached ended replayed' named'
    exact (two_entries released released' (by simp [releases]) (by simp [releases]) single).1
  · refine le_trans (List.Sublist.length_le ?_) single
    exact List.monotone_filter_right _ fun entry => expired_releases entry.2
  · intro thread outcome finished replayed named
    obtain ⟨row, released⟩ := replay_released reached finished replayed named
    refine List.filter_eq_nil_iff.mpr fun entry member consumed => ?_
    have same := (two_entries member released (expired_releases entry.2 consumed) (by simp [releases]) single).2
    simp [same, consumesExpired] at consumed

/-! Two approvals of one hold, in step with each other. -/

def approvedHold : PendingRequest :=
  { pendingId := "tpg_1", sessionId := "s", createdAt := 0, expiresAt := seconds 600, requestHash := "h", provider := ""
    model := "m", projectedTokens := 190000, projectedCostUsd := 1, rawRequestBlob := [1],
        rawRequestHeaders :=
      []
    targetUrl := "", status := .pending, projectedInputTokens := some 190000, blockResponse := none }

def heldWorld : World :=
  { ambient := { clock := 0, usage := fun _ _ => none, cached := fun _ _ _ => none, sessionCost := fun _ _ => 0
                 pendingId := "tpg_2", ticket := "adm_1" }
    holds := ⟨[approvedHold], by simp⟩, grants := fun _ => none, replies := [], inflight := fun _ => []
    lastSweep := fun _ => 0 }

def approval : Evaluation :=
  { analysis :=
      { parseAndStripTipHeader := fun _ => .ok none, parseIntent := fun _ => .positive, hasHumanText := fun _ => true
        approvalFingerprint := fun _ => "yes", hashRequest := fun _ _ => "h"
        estimateAnchored := fun _ model _ => .ok ⟨model, 0, 0, 190000, 0, 1, 0⟩
        getModelMaxContext := fun _ => .ok (some 200000) }
    cfg := {}, request := { body := [2], model := "m", sessionId := "s", headers := [] } }

def racingApprovals : GuardPool Bool :=
  Pool.follow World.turn ((List.replicate 12 [(false, 1), (true, 1)]).flatten)
    (evaluations heldWorld fun _ => approval)

theorem hold_released_once_racing :
    racingApprovals.threads false =
      .done (.ok (replayOutcome { approvedHold with status := .consumed } none)) ∧
    racingApprovals.threads true = .done (.ok (heldResponse approvedHold)) ∧
    (racingApprovals.log.filter fun entry => consumesExpired "tpg_1" entry.2).length ≤ 1 :=
  ⟨by with_unfolding_all rfl, by with_unfolding_all rfl, (hold_released_once heldWorld (fun _ => approval)
    (Pool.follow_reaches (fun _ => World.turn_step) _ _) "tpg_1").2.1⟩

end TokenPak.SpendGuard.HoldRelease
