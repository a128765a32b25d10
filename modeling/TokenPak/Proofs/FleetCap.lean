import TokenPak.Proofs.TicketBalance

/-! The rolling cap of the fleet over a sequence of requests. Requests that name an
agent are checked and registered in one locked section; a request without an agent
id never reaches the check, although the fleet's cap is meant to restrain it. -/

namespace TokenPak.SpendGuard.FleetCap
open Library RollingCaps EvaluateContract EvaluateTickets

/-- A request to evaluate, or the settlement of a ticket once its response is in. -/
inductive CapCall where
  | evaluate (call : Evaluation)
  | settle (process : Nat) (ticket : String)

def CapCall.program : CapCall → Guard (Option GuardOutcome)
  | .evaluate call => do return some (← call.program)
  | .settle process ticket => do
    let _ ← call (.settlePendingSpend process ticket)
    pure none

abbrev CapPool (Thread : Type) := Pool Thread World Op Reply (Except Fault (Option GuardOutcome))

def traffic {Thread : Type} (world : World) (callers : Thread → CapCall) : CapPool Thread :=
  .init world fun thread => (callers thread).program

def inProcess : Op → Bool
  | .checkRollingCapsAndAdmit .. | .settlePendingSpend .. | .recordSessionAgent .. => true
  | _ => false

/-- Stores may raise, the wiring in memory does not, and tickets are drawn fresh. -/
def wiring {Thread : Type} (_ : Thread) (before : World) (event : GuardEvent) (after : World) : Prop :=
  World.Step before event after ∧ (inProcess event.op = true → Answered event) ∧ Drawn before event after

/-- No ticket in the register that is read is past its TTL. -/
def Current (before : World) (event : GuardEvent) (after : World) : Prop :=
  ∀ process ∈ registers event.op, ∀ entry ∈ before.inflight process,
    after.ambient.clock - inflightTtl ≤ entry.admittedAt

instance (before : World) (event : GuardEvent) (after : World) : Decidable (Current before event after) :=
  inferInstanceAs (Decidable (∀ _ ∈ registers event.op, ∀ _ ∈ _, _ ≤ _))

def checks : Op → Option (Nat × Admission)
  | .checkRollingCapsAndAdmit process admission => some (process, admission)
  | _ => none

/-- A cached total that answers the check of a process is not below what the database
records for the fleet. -/
def Covers (ambient : Ambient) (process : Nat) (admission : Admission) : Prop :=
  ∀ entry ∈ ambient.cached process admission.agentId admission.config.windowSeconds, ambient.clock < entry.1 →
    ∃ recorded ∈ ambient.usage admission.agentId admission.config.windowSeconds,
      recorded.fleetCostUsd ≤ entry.2.fleetCostUsd ∧ recorded.fleetTokensTotal ≤ entry.2.fleetTokensTotal ∧
        recorded.fleetCacheReadTokens ≤ entry.2.fleetCacheReadTokens

instance (ambient : Ambient) (process : Nat) (admission : Admission) :
    Decidable (Covers ambient process admission) :=
  inferInstanceAs (Decidable (∀ _ ∈ _, _ < _ → ∃ _ ∈ _, _ ∧ _ ∧ _))

def Fresh (event : GuardEvent) (after : World) : Prop :=
  ∀ check ∈ checks event.op, Covers after.ambient check.1 check.2

instance (event : GuardEvent) (after : World) : Decidable (Fresh event after) :=
  inferInstanceAs (Decidable (∀ _ ∈ checks event.op, Covers _ _ _))

/-- The steps whose checks find no ticket past its TTL and no total that is behind. -/
def watched {Thread : Type} (thread : Thread) (before : World) (event : GuardEvent) (after : World) : Prop :=
  wiring thread before event after ∧ Current before event after ∧ Fresh event after

/-- Recorded usage, all tickets of the register and the request itself are within
each positive cap of the fleet. -/
def WithinFleet (usage : Option RollingUsage) (register : List Ticket) (admission : Admission) : Prop :=
  ∃ recorded, usage = some recorded ∧
    (0 < admission.config.perFleetMaxCostUsd →
      recorded.fleetCostUsd + (register.map Ticket.costUsd).sum + admission.projectedCostUsd ≤
        admission.config.perFleetMaxCostUsd) ∧
    (0 < admission.config.perFleetMaxTokensTotal →
      recorded.fleetTokensTotal + (register.map Ticket.tokensTotal).sum +
        (admission.projectedInputTokens + admission.projectedOutputTokens) ≤ admission.config.perFleetMaxTokensTotal) ∧
    (0 < admission.config.perFleetMaxCacheReadTokens →
      recorded.fleetCacheReadTokens + (register.map Ticket.cacheReadTokens).sum +
        admission.projectedCacheReadTokens ≤
        admission.config.perFleetMaxCacheReadTokens)

/-- The cap of the fleet restrains the traffic: what is sent was admitted with the
projection of its bytes, admissions are within the cap, and an admitted request
stays in the register until it is settled. -/
structure Restrained {Thread : Type} [DecidableEq Thread]
    (machine : Thread → World → GuardEvent → World → Prop)
    (callers : Thread → CapCall) (pool : CapPool Thread) : Prop where
  admitted : ∀ thread call outcome, callers thread = .evaluate call →
    pool.threads thread = .done (.ok (some outcome)) →
    outcome.kind.sends = true → ∃ body est id, outcome.body = some body ∧
      call.analysis.estimateAnchored body call.request.model call.request.sessionId = .ok est ∧
      (thread, admitted call.cfg call.request est id) ∈ pool.log
  within : ∀ next thread process admission id,
    Pool.Performs machine pool next thread ⟨.checkRollingCapsAndAdmit process admission, .ok (none, some id)⟩ →
    admission.config.enabled = true →
    WithinFleet (next.world.ambient.usage admission.agentId admission.config.windowSeconds)
      (pool.world.inflight process) admission
  registered : ∀ earlier later thread process admission id,
    pool.log = earlier ++
      (thread, ⟨.checkRollingCapsAndAdmit process admission, .ok (none, some id)⟩) :: later →
    (∀ entry ∈ later, entry.2.op ≠ Op.settlePendingSpend process id) →
    ∃ moment, admission.ticket id moment ∈ pool.world.inflight process

/-! The check itself. -/

theorem checkCap_none {dimension : CapDimension} {agent : String} {window : Int} {used add cap : ℚ}
    (passed : checkCap dimension agent window used add cap = none) (positive : 0 < cap) :
    used + add ≤ cap := by
  unfold checkCap at passed
  split at passed
  · cases passed
  next within => exact not_lt.mp fun excess => within ⟨positive, excess⟩

theorem withPending_fleet (usage pending : RollingUsage) :
    (withPending usage pending).fleetCostUsd = usage.fleetCostUsd + pending.fleetCostUsd ∧
    (withPending usage pending).fleetTokensTotal = usage.fleetTokensTotal + pending.fleetTokensTotal ∧
    (withPending usage pending).fleetCacheReadTokens = usage.fleetCacheReadTokens +
      pending.fleetCacheReadTokens := by
  unfold withPending
  split
  · exact ⟨rfl, rfl, rfl⟩
  next idle =>
    simp only [not_or, not_not] at idle
    simp [idle]

/-- A passing check saw usage, register and request within the fleet's caps. -/
theorem checkRollingCaps_within {admission : Admission} {usage : Option RollingUsage} {register : List Ticket}
    (enabled : admission.config.enabled = true) (passed : checkRollingCaps admission usage register = none) :
    WithinFleet usage register admission := by
  unfold checkRollingCaps at passed
  simp only [enabled, Bool.true_eq_false, if_false] at passed
  cases usage with
  | none => cases passed
  | some recorded =>
    obtain ⟨_, cost, tokens, cacheRead⟩ := by simpa only [Option.orElse_eq_none] using passed
    obtain ⟨costSum, tokenSum, cacheSum⟩ :=
      withPending_fleet recorded (pendingSpendTotals admission.agentId register)
    refine ⟨recorded, rfl, fun positive => ?_, fun positive => ?_, fun positive => ?_⟩
    · have bound := checkCap_none cost positive
      rw [costSum] at bound
      exact bound
    · have bound := checkCap_none tokens (Int.cast_pos.mpr positive)
      rw [tokenSum] at bound
      exact_mod_cast bound
    · have bound := checkCap_none cacheRead (Int.cast_pos.mpr positive)
      rw [cacheSum] at bound
      exact_mod_cast bound

theorem WithinFleet.recorded {ambient : Ambient} {process : Nat} {admission : Admission}
    {register : List Ticket} (within : WithinFleet (ambient.reading process admission) register admission)
    (covers : Covers ambient process admission) :
    WithinFleet (ambient.usage admission.agentId admission.config.windowSeconds) register admission := by
  unfold Ambient.reading computeRollingUsage at within
  cases valid : (ambient.cached process admission.agentId admission.config.windowSeconds).filter
      fun entry => ambient.clock < entry.1 with
  | none => rwa [valid] at within
  | some entry =>
    rw [valid] at within
    obtain ⟨total, same, cost, tokens, cacheRead⟩ := within
    obtain rfl : entry.2 = total := Option.some.inj same
    obtain ⟨found, unexpired⟩ := Option.filter_eq_some_iff.mp valid
    obtain ⟨recorded, read, costs, tokenTotal, cacheTotal⟩ := covers entry found (of_decide_eq_true unexpired)
    refine ⟨recorded, read, fun positive => ?_, fun positive => ?_, fun positive => ?_⟩
    · have bound := cost positive
      linarith
    · have bound := tokens positive
      omega
    · have bound := cacheRead positive
      omega

theorem live_current {now : Time} {register : List Ticket}
    (current : ∀ entry ∈ register, now - inflightTtl ≤ entry.admittedAt) : live now register = register :=
  List.filter_eq_self.mpr fun entry member => decide_eq_true (current entry member)

theorem Trimmed.current {register trimmed : List Ticket} {now : Time} (cleaned : Trimmed register now trimmed)
    (current : ∀ entry ∈ register, now - inflightTtl ≤ entry.admittedAt) : trimmed = register := by
  rcases cleaned with same | ⟨moment, before, rfl⟩
  · exact same
  · exact live_current fun entry member => le_trans (Int.sub_le_sub_right before _) (current entry member)

section step
variable {Thread : Type} {thread : Thread} {before after : World} {event : GuardEvent} {process : Nat}

/-- A ticket leaves a current register only by its own settlement. -/
theorem ticket_kept {ticket : Ticket} (step : wiring thread before event after)
    (current : Current before event after)
    (member : ticket ∈ before.inflight process)
    (unsettled : event.op ≠ .settlePendingSpend process ticket.id) :
    ticket ∈ after.inflight process := by
  rcases step.1.inflight_cases with ⟨same, _⟩ | ⟨other, admission, usage, _, rfl, changed⟩
    | ⟨other, id, rfl, changed⟩
  · rw [same]
    exact member
  · rw [changed]
    by_cases own : other = process
    · subst own
      rw [Function.update_self]
      obtain ⟨_, fresh⟩ := step.2.2 other rfl
      obtain ⟨trimmed, cleaned, answer⟩ := checkRollingCapsAndAdmit_cases admission usage after.ambient.ticket
        after.ambient.clock (before.inflight other)
      obtain rfl := Trimmed.current cleaned (current other rfl)
      rcases answer with ⟨breach, _, same⟩ | ⟨_, same⟩
      · rw [same]
        exact member
      · rw [same]
        apply List.mem_append_left
        exact List.mem_filter.mpr ⟨member, decide_eq_true (fresh ticket member)⟩
    · rw [Function.update_of_ne (Ne.symm own)]
      exact member
  · rw [changed]
    by_cases own : other = process
    · subst own
      rw [Function.update_self, RollingCaps.settlePendingSpend]
      split
      · exact member
      · refine List.mem_filter.mpr ⟨member, decide_eq_true fun same => unsettled ?_⟩
        rw [same]
    · rw [Function.update_of_ne (Ne.symm own)]
      exact member

/-- What an admitting step saw and what it registered. -/
theorem admission_step {admission : Admission} {id : String} (step : wiring thread before
      ⟨.checkRollingCapsAndAdmit process admission, .ok (none, some id)⟩ after)
    (current : Current before ⟨.checkRollingCapsAndAdmit process admission, .ok (none, some id)⟩ after) :
    checkRollingCaps admission (after.ambient.reading process admission) (before.inflight process) = none ∧
    admission.ticket id after.ambient.clock ∈ after.inflight process := by
  rcases step.1.inflight_cases with ⟨_, quiet | raised⟩
    | ⟨other, request, usage, read, asked, changed⟩ | ⟨_, _, asked, _⟩
  · cases quiet
  · exact absurd ⟨_, rfl⟩ raised
  · obtain ⟨rfl, rfl⟩ : process = other ∧ admission = request :=
      Op.checkRollingCapsAndAdmit.inj (congrArg Event.op asked)
    obtain ⟨trimmed, cleaned, answer⟩ := checkRollingCapsAndAdmit_cases admission usage after.ambient.ticket
      after.ambient.clock (before.inflight process)
    obtain rfl := Trimmed.current cleaned (current process rfl)
    rcases answer with ⟨breach, _, same⟩ | ⟨passed, same⟩
    · rw [same] at asked
      simp at asked
    · rw [same] at asked changed
      obtain rfl : id = after.ambient.ticket := by simpa using asked
      refine ⟨read ▸ passed, ?_⟩
      rw [changed, Function.update_self]
      exact List.mem_append_right _ (List.mem_singleton_self _)
  · cases congrArg Event.op asked

end step

section run
variable {Thread : Type} {before after : World} {log : List (Thread × GuardEvent)} {thread : Thread}
  {event : GuardEvent}

/-- Every admission that was not settled since is in the register. -/
def Unsettled (world : World) (log : List (Thread × GuardEvent)) : Prop :=
  ∀ earlier later thread process admission id,
    log = earlier ++ (thread, ⟨.checkRollingCapsAndAdmit process admission, .ok (none, some id)⟩) :: later →
    (∀ entry ∈ later, entry.2.op ≠ Op.settlePendingSpend process id) →
    ∃ moment, admission.ticket id moment ∈ world.inflight process

theorem Unsettled.step (unsettled : Unsettled before log) (step : wiring thread before event after)
    (current : Current before event after) : Unsettled after (log ++ [(thread, event)]) := by
  intro earlier later actor process admission id split kept
  -- the admission is the new event or an older one
  rcases List.eq_nil_or_concat later with rfl | ⟨rest, last, rfl⟩
  · obtain ⟨rfl, final⟩ := List.append_inj' split rfl
    obtain ⟨rfl, rfl⟩ := Prod.mk.inj (List.singleton_inj.mp final)
    exact ⟨_, (admission_step step current).2⟩
  · rw [List.concat_eq_append, ← List.cons_append, ← List.append_assoc] at split
    obtain ⟨prior, final⟩ := List.append_inj' split rfl
    obtain rfl := List.singleton_inj.mp final
    obtain ⟨moment, member⟩ := unsettled earlier rest actor process admission id prior fun entry inside =>
      kept entry (by simp [inside])
    exact ⟨moment, ticket_kept step current member (kept (thread, event) (by simp))⟩

end run

section traffic
variable {Thread : Type} [DecidableEq Thread] {world : World} {callers : Thread → CapCall}

/-- The contract of one caller: an evaluation keeps the register in balance. -/
def CallPost (caller : CapCall) (past : List GuardEvent) : Except Fault (Option GuardOutcome) → Prop
  | .ok (some outcome) => ∀ call, caller = .evaluate call →
    EvaluateTickets.Post call.analysis call.cfg call.request past (.ok outcome)
  | _ => True

theorem program_tallies (caller : CapCall) :
    Program.Ensures (fun _ _ => True) (CallPost caller) [] caller.program := by
  cases caller with
  | evaluate call =>
    apply Ensures.map some
    refine Program.Ensures.mono (evaluate_tallies call.analysis call.cfg call.request) fun past result tallied => ?_
    cases result with
    | error fault => exact trivial
    | ok outcome =>
      intro other same
      obtain rfl := CapCall.evaluate.inj same
      exact tallied
  | settle process ticket => exact ⟨trivial, fun reply => by cases reply <;> trivial⟩

theorem reaches_wired {pool : CapPool Thread} (reached : Pool.Reaches wiring (traffic world callers) pool) :
    ∀ entry ∈ pool.log, Wired entry.2 := by
  apply reached.invariant (fun _ log => ∀ entry ∈ log, Wired entry.2)
  · simp [traffic, Pool.init]
  · intro before after log thread event wired step entry member
    rcases List.mem_append.mp member with earlier | last
    · exact wired entry earlier
    · rw [List.mem_singleton.mp last]
      by_cases inside : inProcess event.op = true
      · exact step.1.wired (step.2.1 inside)
      · obtain ⟨op, reply⟩ := event
        cases op with
        | checkRollingCapsAndAdmit process admission => exact absurd rfl inside
        | settlePendingSpend process ticket => exact absurd rfl inside
        | recordSessionAgent session agent => exact absurd rfl inside
        | _ => trivial

end traffic

/-! A request of an agent that is checked against a cached total, sent and settled. -/

def cachedWorld : World :=
  { TicketBalance.measuredWorld with
    ambient := { TicketBalance.measuredWorld.ambient with cached := fun _ _ _ => some (seconds 30, ⟨0, 0, 0, 1, 0, 0⟩) } }

def settledCallers (sent : Bool) : CapCall :=
  if sent then .evaluate (TicketBalance.agentCall true) else .settle 0 "adm_1"

def settledTraffic : CapPool Bool :=
  Pool.follow World.turn (List.replicate 9 (true, 1) ++ [(false, 1)])
    (traffic cachedWorld settledCallers)

theorem settledTraffic_reached :
    Pool.Reaches watched (traffic cachedWorld settledCallers) settledTraffic := by
  have followed : Pool.Reaches (fun _ before event after => World.Step before event after ∧
      ((inProcess event.op = true → Answered event) ∧ Drawn before event after) ∧
      Current before event after ∧ Fresh event after)
      (traffic cachedWorld settledCallers) settledTraffic :=
    Pool.follow_reaches_where (fun _ => World.turn_step) (by decide +kernel)
  exact followed.mono fun _ _ _ _ step => ⟨⟨step.1, step.2.1⟩, step.2.2⟩

theorem settledCallers_evaluate {thread : Bool} {call : Evaluation}
    (caller : settledCallers thread = .evaluate call) :
    call = TicketBalance.agentCall true := by
  cases thread with
  | true => exact (CapCall.evaluate.inj caller).symm
  | false => cases caller

def unattributed : Evaluation :=
  { TicketBalance.agentCall true with request := { (TicketBalance.agentCall true).request with headers := [] } }

def exhaustedWorld : World :=
  { TicketBalance.measuredWorld with
    ambient := { TicketBalance.measuredWorld.ambient with usage := fun _ _ => some ⟨0, 0, 0, 60, 0, 0⟩ } }

def unattributedTraffic : CapPool Unit :=
  Pool.follow World.turn (List.replicate 9 ((), 1)) (traffic exhaustedWorld fun _ => .evaluate unattributed)

end TokenPak.SpendGuard.FleetCap
