import TokenPak.Proofs.EvaluateContract
import TokenPak.Proofs.HoldTable

/-! The budget of a persistent approval. From the step that creates a grant until
another one replaces it, what the grant has paid and what is left of it add up to
the declared allowance. -/

namespace TokenPak.SpendGuard.GrantBudget
open Library Policy EvaluateContract Approvals

variable {Thread : Type}

def charged (key : ScopeKey) : GuardEvent → Option RiskEstimate
  | ⟨.redeem other risk, .ok true⟩ => if other = key then some risk else none
  | _ => none

/-- The successful redemptions of the key, in order. -/
def redeemed (key : ScopeKey) (log : List (Thread × GuardEvent)) : List RiskEstimate :=
  log.filterMap fun entry => charged key entry.2

def redeemedCost (key : ScopeKey) (log : List (Thread × GuardEvent)) : ℚ :=
  ((redeemed key log).map RiskEstimate.projectedCostUsd).sum

/-- The event puts a new grant under the key. -/
def replaces (key : ScopeKey) : GuardEvent → Bool
  | ⟨.create other tip _, .ok _⟩ => other = key && tip.persistent
  | _ => false

def revokes (key : ScopeKey) : GuardEvent → Bool
  | ⟨.revoke other, .ok _⟩ => other = key
  | _ => false

theorem redeemed_snoc (key : ScopeKey) (log : List (Thread × GuardEvent)) (thread : Thread)
    (event : GuardEvent) :
    redeemed key (log ++ [(thread, event)]) = redeemed key log ++ (charged key event).toList := by
  rw [redeemed, List.filterMap_append]
  cases paid : charged key event <;> simp [redeemed, paid]

theorem redeemedCost_snoc (key : ScopeKey) (log : List (Thread × GuardEvent)) (thread : Thread)
    (event : GuardEvent) :
    redeemedCost key (log ++ [(thread, event)]) =
      redeemedCost key log + ((charged key event).map RiskEstimate.projectedCostUsd).getD 0 := by
  rw [redeemedCost, redeemed_snoc, List.map_append, List.sum_append, ← redeemedCost]
  cases charged key event <;> simp

section lifetime
variable (key : ScopeKey) (tip : TIPDirective) (est : RiskEstimate) (made : Time)

/-- Where the grant stands after the events since its creation. -/
structure Balanced (world : World) (segment : List (Thread × GuardEvent)) : Prop where
  within : ∀ limit ∈ tip.maxCostUsd, est.projectedCostUsd + redeemedCost key segment ≤ limit
  tokens : ∀ limit ∈ tip.maxTokens, ∀ risk ∈ redeemed key segment, risk.projectedTokens ≤ limit
  stored : ∀ grant, world.grants key = some grant →
    grant.expiresAt = (grantOf tip est made).expiresAt ∧ grant.maxTokens = tip.maxTokens ∧
    (∀ entry ∈ segment, revokes key entry.2 = false) ∧
    grant.remainingCost = tip.maxCostUsd.map fun limit =>
      limit - (est.projectedCostUsd + redeemedCost key segment)

variable {key tip est made}
variable {world after : World} {segment : List (Thread × GuardEvent)} {thread : Thread}
variable {event : GuardEvent}

theorem Balanced.unchanged (balanced : Balanced key tip est made world segment)
    (free : charged key event = none)
    (same : ∀ grant, after.grants key = some grant → world.grants key = some grant ∧
      revokes key event = false) :
    Balanced key tip est made after (segment ++ [(thread, event)]) where
  within limit declared := by
    rw [redeemedCost_snoc, free]
    simpa using balanced.within limit declared
  tokens limit declared risk paid := by
    rw [redeemed_snoc, free] at paid
    exact balanced.tokens limit declared risk (by simpa using paid)
  stored grant found := by
    obtain ⟨before, standing⟩ := same grant found
    obtain ⟨expires, tokens, unrevoked, remaining⟩ := balanced.stored grant before
    refine ⟨expires, tokens, fun entry member => ?_, ?_⟩
    · obtain before | last := List.mem_append.mp member
      · exact unrevoked entry before
      · rw [List.mem_singleton.mp last]; exact standing
    · rw [redeemedCost_snoc, free]
      simpa using remaining

/-- A redemption moves its cost from what is left to what was paid. -/
theorem Balanced.redeemed {risk : RiskEstimate} {grant : Grant}
    (balanced : Balanced key tip est made world segment) (found : world.grants key = some grant)
    (covers : grant.Covers risk after.ambient.clock)
    (paid : after.grants = Function.update world.grants key (some (grant.charge risk))) :
    Balanced key tip est made after (segment ++ [(thread, ⟨.redeem key risk, .ok true⟩)]) := by
  obtain ⟨expires, tokens, unrevoked, remaining⟩ := balanced.stored grant found
  obtain ⟨_, tokensCovered, costCovered⟩ := covers
  have bill : charged key ⟨.redeem key risk, .ok true⟩ = some risk := by simp [charged]
  have affordable : ∀ limit ∈ tip.maxCostUsd,
      risk.projectedCostUsd ≤ limit - (est.projectedCostUsd + redeemedCost key segment) := by
    intro limit declared
    exact costCovered _ (by rw [remaining, Option.mem_def.mp declared]; rfl)
  refine ⟨fun limit declared => ?_, fun limit declared other member => ?_, fun later stored => ?_⟩
  · have enough := affordable limit declared
    rw [redeemedCost_snoc, bill]
    simp only [Option.map_some, Option.getD_some]
    linarith
  · rw [redeemed_snoc, bill] at member
    obtain before | last := List.mem_append.mp member
    · exact balanced.tokens limit declared other before
    · obtain rfl : other = risk := by simpa using last
      exact tokensCovered limit (tokens ▸ declared)
  · rw [paid, Function.update_self] at stored
    obtain rfl := Option.some.inj stored
    refine ⟨expires, tokens, fun entry member => ?_, ?_⟩
    · obtain before | last := List.mem_append.mp member
      · exact unrevoked entry before
      · rw [List.mem_singleton.mp last]; rfl
    · simp only [Grant.charge, remaining]
      cases declared : tip.maxCostUsd with
      | none => rfl
      | some limit =>
        have enough := affordable limit declared
        rw [redeemedCost_snoc, bill]
        simp only [Option.map_some, Option.getD_some, Option.some.injEq]
        rw [max_eq_right (by linarith)]
        linarith

theorem charged_elsewhere {other : ScopeKey} (different : other ≠ key) (risk : RiskEstimate) (answer : Bool) :
    charged key ⟨.redeem other risk, .ok answer⟩ = none := by
  cases answer <;> simp [charged, different]

theorem charged_touches (untouched : touchesGrants event = false) :
    charged key event = none ∧ revokes key event = false := by
  unfold touchesGrants at untouched
  split at untouched
  · cases untouched
  · cases untouched
  · cases untouched
  next noCreate noRevoke noRedeem =>
    constructor
    · unfold charged
      split
      next other risk => exact absurd rfl (noRedeem other risk true)
      next => rfl
    · unfold revokes
      split
      next other answer => exact absurd rfl (noRevoke other answer)
      next => rfl

theorem Balanced.step (balanced : Balanced key tip est made world segment)
    (step : World.Step world event after) (kept : replaces key event = false) :
    Balanced key tip est made after (segment ++ [(thread, event)]) := by
  obtain ⟨untouched, same⟩ | ⟨other, directive, risk, rfl, same⟩ | ⟨other, rfl, same⟩
      | ⟨other, risk, asked, same⟩ :=
    step.grants_cases
  · obtain ⟨free, standing⟩ : charged key event = none ∧ revokes key event = false :=
      charged_touches untouched
    exact balanced.unchanged free fun grant found => ⟨same ▸ found, standing⟩
  · refine balanced.unchanged rfl fun grant found => ⟨?_, rfl⟩
    rw [same, Approvals.create] at found
    split at found
    next persistent =>
      have different : key ≠ other := by
        rintro rfl
        simp [replaces, persistent] at kept
      rwa [Function.update_of_ne different] at found
    next => exact found
  · refine balanced.unchanged rfl fun grant found => ?_
    rw [same, Approvals.revoke] at found
    by_cases own : other = key
    · subst own
      simp at found
    · rw [Function.update_of_ne (Ne.symm own)] at found
      exact ⟨found, by simp [revokes, own]⟩
  · by_cases own : other = key
    · subst own
      cases stored : world.grants other with
      | none =>
        simp only [Approvals.redeem, stored] at asked same
        subst asked
        exact balanced.unchanged rfl fun grant found => ⟨same ▸ found, rfl⟩
      | some grant =>
        simp only [Approvals.redeem, stored] at asked same
        split at same
        next covers =>
          rw [if_pos covers] at asked
          subst asked
          exact balanced.redeemed stored covers same
        next refused =>
          rw [if_neg refused] at asked
          subst asked
          refine balanced.unchanged rfl fun grant found => ?_
          simp [same, Approvals.revoke] at found
    · have elsewhere : (Approvals.redeem other risk after.ambient.clock world.grants).2 key =
          world.grants key := by
        simp only [Approvals.redeem, Approvals.revoke]
        split
        · rfl
        · split <;> exact Function.update_of_ne (Ne.symm own) _ _
      subst asked
      refine balanced.unchanged (charged_elsewhere own _ _) fun grant found => ⟨?_, rfl⟩
      rwa [same, elsewhere] at found

end lifetime

variable [DecidableEq Thread]

def Performed (before after : GuardPool Thread) (thread : Thread) (event : GuardEvent) : Prop :=
  Pool.Step (fun _ => World.Step) before after ∧ after.log = before.log ++ [(thread, event)]

variable {before after : GuardPool Thread} {thread : Thread} {key : ScopeKey} {tip : TIPDirective}
variable {est : RiskEstimate}

theorem Performed.waiting {event : GuardEvent} (performed : Performed before after thread event) :
    (∃ next, before.threads thread = .request event.op next) ∧ World.Step before.world event after.world := by
  obtain ⟨step, log⟩ := performed
  cases step with
  | @act actor op next reply world waiting answered =>
    obtain ⟨rfl, rfl⟩ := Prod.mk.inj (List.singleton_inj.mp (List.append_cancel_left log))
    exact ⟨⟨next, waiting⟩, answered⟩

theorem created_within {world : World} {calls : Thread → Evaluation}
    (reached : Pool.Reaches (fun _ => World.Step) (evaluations world calls) before)
    (created : Performed before after thread ⟨.create key tip est, .ok ()⟩)
    (persistent : tip.persistent = true) : withinCeiling est tip := by
  obtain ⟨next, waiting⟩ := created.waiting.1
  have contract := reached.ensures (fun thread => evaluate_keeps _ _ _) thread
  rw [waiting] at contract
  exact contract.1.2 persistent

theorem created_balanced (created : Performed before after thread ⟨.create key tip est, .ok ()⟩)
    (persistent : tip.persistent = true) (within : withinCeiling est tip) :
    Balanced key tip est after.world.ambient.clock after.world ([] : List (Thread × GuardEvent)) := by
  have grants : after.world.grants =
      Approvals.create key tip est after.world.ambient.clock before.world.grants := by
    obtain ⟨untouched, _⟩ | ⟨_, _, _, same, grants⟩ | ⟨_, same, _⟩ | ⟨_, _, same, _⟩ :=
      created.waiting.2.grants_cases
    · cases untouched
    · cases same; exact grants
    · cases same
    · cases same
  rw [Approvals.create, if_pos persistent] at grants
  refine ⟨fun limit declared => ?_, by simp [redeemed], fun grant stored => ?_⟩
  · simpa [redeemedCost, redeemed] using within.1 limit declared
  · rw [grants, Function.update_self] at stored
    obtain rfl := Option.some.inj stored
    refine ⟨rfl, rfl, by simp, ?_⟩
    simp only [grantOf, redeemedCost, redeemed, List.filterMap_nil, List.map_nil, List.sum_nil, add_zero]
    cases declared : tip.maxCostUsd with
    | none => rfl
    | some limit =>
      have enough := within.1 limit declared
      rw [Option.map_some, Option.map_some, max_eq_right (by linarith)]

/-- Along the life of a grant. -/
theorem reaches_balanced {final : GuardPool Thread} {made : Time}
    (reached : Pool.Reaches (fun _ => World.Step) after final)
    (start : Balanced key tip est made after.world ([] : List (Thread × GuardEvent)))
    (segment : List (Thread × GuardEvent)) (log : final.log = after.log ++ segment)
    (kept : ∀ entry ∈ segment, replaces key entry.2 = false) :
    Balanced key tip est made final.world segment := by
  refine reached.invariant (fun world log => ∃ segment, log = after.log ++ segment ∧
    ((∀ entry ∈ segment, replaces key entry.2 = false) → Balanced key tip est made world segment))
    ⟨[], by simp, fun _ => start⟩ ?_ |>.elim fun other known => ?_
  · rintro world next log thread event ⟨segment, rfl, balanced⟩ step
    refine ⟨segment ++ [(thread, event)], by simp, fun kept => ?_⟩
    exact (balanced fun entry member => kept entry (List.mem_append_left _ member)).step step
      (kept (thread, event) (by simp))
  · obtain rfl : segment = other := List.append_cancel_left (log.symm.trans known.1)
    exact known.2 kept

/-- The life of a grant, over any interleaving of evaluations: the cost of its
creator and of every redemption stays within the declared cost, each of these
requests alone stays within the declared tokens, and no redemption succeeds at or
after the expiry or after a revocation. -/
theorem grant_budget_conserved (world : World) (calls : Thread → Evaluation)
    {before after final : GuardPool Thread}
    {thread : Thread} {key : ScopeKey} {tip : TIPDirective} {est : RiskEstimate}
    (reached : Pool.Reaches (fun _ => World.Step) (evaluations world calls) before)
    (created : Performed before after thread ⟨.create key tip est, .ok ()⟩)
    (persistent : tip.persistent = true)
    (run : Pool.Reaches (fun _ => World.Step) after final) (segment : List (Thread × GuardEvent))
    (log : final.log = after.log ++ segment) (kept : ∀ entry ∈ segment, replaces key entry.2 = false) :
    (∀ limit ∈ tip.maxCostUsd, est.projectedCostUsd + redeemedCost key segment ≤ limit) ∧
    (∀ limit ∈ tip.maxTokens, est.projectedTokens ≤ limit ∧
      ∀ risk ∈ redeemed key segment, risk.projectedTokens ≤ limit) ∧
    ∀ next actor risk, Performed final next actor ⟨.redeem key risk, .ok true⟩ →
      (tip.allowScope = some .fifteenMinutes →
        next.world.ambient.clock < after.world.ambient.clock + seconds 900) ∧
      ∀ entry ∈ segment, revokes key entry.2 = false := by
  have within := created_within reached created persistent
  have balanced := reaches_balanced run (created_balanced created persistent within) segment log kept
  refine ⟨balanced.within, fun limit declared =>
    ⟨within.2 limit declared, balanced.tokens limit declared⟩, ?_⟩
  intro next actor risk performed
  obtain ⟨untouched, _⟩ | ⟨_, _, _, same, _⟩ | ⟨_, same, _⟩ | ⟨other, asked, same, _⟩ :=
    performed.waiting.2.grants_cases
  · cases untouched
  · cases same
  · cases same
  · obtain ⟨rfl, rfl⟩ : key = other ∧ risk = asked := by
      have ops := congrArg Event.op same
      exact ⟨(Op.redeem.inj ops).1, (Op.redeem.inj ops).2⟩
    have succeeded : (Approvals.redeem key risk next.world.ambient.clock final.world.grants).1 = true := by
      have replies := eq_of_heq (Event.mk.inj same).2
      exact (Except.ok.inj replies).symm
    simp only [Approvals.redeem] at succeeded
    split at succeeded
    · cases succeeded
    next grant stored =>
      split at succeeded
      next covers =>
        obtain ⟨expires, _, unrevoked, _⟩ := balanced.stored grant stored
        refine ⟨fun scope => covers.1 _ ?_, unrevoked⟩
        rw [expires, grantOf, if_pos scope]
        rfl
      next => cases succeeded

/-! A grant of 200k tokens that two requests of 190k use. -/

def grantingTip : TIPDirective :=
  { allowScope := some .session, maxTokens := some 200000, maxCostUsd := some 5 }

def granter (directed : Bool) : Evaluation :=
  { analysis :=
      { parseAndStripTipHeader := fun body => .ok (if directed then some (grantingTip, body) else none)
        parseIntent := fun _ => .ambiguous, hasHumanText := fun _ => true, approvalFingerprint := fun _ => ""
        hashRequest := fun _ _ => "h", estimateAnchored :=
          fun _ model _ => .ok ⟨model, 0, 190000, 190000, 0, 2, 0⟩
        getModelMaxContext := fun _ => .ok (some 200000) }
    cfg := {}, request := { body := [1], model := "m", sessionId := "s", headers := [] } }

def emptyWorld : World :=
  { ambient := { clock := 0, usage := fun _ _ => none, cached := fun _ _ _ => none, sessionCost := fun _ _ => 0
                 pendingId := "tpg_1", ticket := "adm_1" }
    holds := .empty, grants := fun _ => none, replies := [], inflight := fun _ => [], lastSweep := fun _ => 0 }

def beforeGrant : GuardPool Bool :=
  Pool.follow World.turn (List.replicate 5 (true, 1)) (evaluations emptyWorld granter)

def afterGrant : GuardPool Bool := Pool.follow World.turn [(true, 1)] beforeGrant

def afterRedeem : GuardPool Bool := Pool.follow World.turn (List.replicate 6 (false, 1)) afterGrant

def grantKey : ScopeKey := scopeKey "s" "m" []

def bigRequest : RiskEstimate := ⟨"m", 0, 190000, 190000, 0, 2, 0⟩

theorem grant_created :
    Performed beforeGrant afterGrant true ⟨.create grantKey grantingTip bigRequest, .ok ()⟩ := by
  have waiting : ∃ next, beforeGrant.threads true = .request (.create grantKey grantingTip bigRequest) next :=
    ⟨_, by with_unfolding_all rfl⟩
  obtain ⟨next, waiting⟩ := waiting
  exact Pool.follow_step (fun _ => World.turn_step) 1 waiting

def grantSegment : List (Bool × GuardEvent) := afterRedeem.log.drop afterGrant.log.length

theorem grant_segment : afterRedeem.log = afterGrant.log ++ grantSegment ∧
    ∀ entry ∈ grantSegment, replaces grantKey entry.2 = false :=
  ⟨by with_unfolding_all rfl, by decide +kernel⟩

theorem grant_budget_conserved_once : redeemed grantKey grantSegment = [bigRequest] ∧
    ∀ limit ∈ grantingTip.maxCostUsd,
      bigRequest.projectedCostUsd + redeemedCost grantKey grantSegment ≤ limit :=
  ⟨by decide +kernel, (grant_budget_conserved emptyWorld granter (Pool.follow_reaches (fun _ => World.turn_step) _ _)
    grant_created rfl (Pool.follow_reaches (fun _ => World.turn_step) _ _) grantSegment grant_segment.1 grant_segment.2).1⟩

/-- Tokens are a ceiling for each request: two requests together pass it. -/
theorem token_limit_not_cumulative :
    ¬∀ (world : World) (calls : Bool → Evaluation) (before after final : GuardPool Bool) (thread : Bool)
      (key : ScopeKey) (tip : TIPDirective) (est : RiskEstimate) (segment : List (Bool × GuardEvent)),
      Pool.Reaches (fun _ => World.Step) (evaluations world calls) before →
      Performed before after thread ⟨.create key tip est, .ok ()⟩ → tip.persistent = true →
      Pool.Reaches (fun _ => World.Step) after final → final.log = after.log ++ segment →
      (∀ entry ∈ segment, replaces key entry.2 = false) →
      ∀ limit ∈ tip.maxTokens,
        est.projectedTokens + ((redeemed key segment).map RiskEstimate.projectedTokens).sum ≤ limit := by
  intro cumulative
  have total := cumulative emptyWorld granter beforeGrant afterGrant afterRedeem true grantKey grantingTip bigRequest
    grantSegment (Pool.follow_reaches (fun _ => World.turn_step) _ _) grant_created rfl
    (Pool.follow_reaches (fun _ => World.turn_step) _ _) grant_segment.1 grant_segment.2 200000 rfl
  exact absurd total (by decide +kernel)

end TokenPak.SpendGuard.GrantBudget
