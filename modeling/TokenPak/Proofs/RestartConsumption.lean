import Mathlib.Algebra.Order.Group.Multiset
import Mathlib.Data.List.Induction
import TokenPak.Proofs.RestartDetection

/-! Who is told of a restart failure. The read of a check and its acknowledgement are two
statements, so a second check may read the row in between; where none does, the failure is
told once. -/

namespace TokenPak.Proxy.ExecutionLedger
open Library

inductive LedgerEvent where
  | recovered (tipPlanId : String)
  | returned (tipPlanId : String) (failure : RestartFailure)
  deriving DecidableEq

/-- The ledger with the checks that have found a failure and not yet acknowledged it. -/
structure LedgerState where
  plans : Plans
  found : Multiset (String × Plan)
  events : List LedgerEvent

/-- What is told of a step: that a check finds the failure of a plan. -/
inductive LedgerLabel where
  | finds (tipPlanId : String)
  | other

/-- One statement of one caller. A check that finds nothing changes nothing and is left out; one that
meets an error ends without a record. -/
inductive LedgerStep : LedgerState → LedgerLabel → LedgerState → Prop where
  | beginPlan {plans found events} (enabled : Bool) (request : Request) (now : Int) :
      LedgerStep ⟨plans, found, events⟩ .other ⟨beginPlan enabled request now plans, found, events⟩
  | completePlan {plans found events} (enabled : Bool) (tipPlanId : String) (now : Int) :
      LedgerStep ⟨plans, found, events⟩ .other ⟨completePlan enabled tipPlanId now plans, found, events⟩
  | failPlan {plans found events} {reason : String} (enabled : Bool) (tipPlanId : String) (now : Int)
      (ordinary : reason ≠ restartFailureReason) :
      LedgerStep ⟨plans, found, events⟩ .other ⟨failPlan enabled tipPlanId reason now plans, found, events⟩
  | recover {plans found events} (enabled : Bool) (retentionSeconds now : Int) :
      LedgerStep ⟨plans, found, events⟩ .other
        ⟨(recoverOrphanedPlans enabled retentionSeconds now plans).2, found, events ++
          (recoverOrphanedPlans enabled retentionSeconds now plans).1.map fun plan => LedgerEvent.recovered plan.tipPlanId⟩
  | find {plans found events enabled tipPlanId row} (finds : findRestartFailure enabled tipPlanId plans = some row) :
      LedgerStep ⟨plans, found, events⟩ (.finds tipPlanId) ⟨plans, (tipPlanId, row) ::ₘ found, events⟩
  | acknowledge {plans found events tipPlanId row} :
      LedgerStep ⟨plans, (tipPlanId, row) ::ₘ found, events⟩ .other
        ⟨acknowledge tipPlanId plans, found, events ++ [LedgerEvent.returned tipPlanId row.failure]⟩
  | abandon {plans found events tipPlanId row} :
      LedgerStep ⟨plans, (tipPlanId, row) ::ₘ found, events⟩ .other ⟨plans, found, events⟩

inductive LedgerReaches (allowed : LedgerState → LedgerLabel → Prop) : LedgerState → Prop where
  | start (plans : Plans) : LedgerReaches allowed ⟨plans, 0, []⟩
  | step {state label next} (before : LedgerReaches allowed state) (may : allowed state label)
      (step : LedgerStep state label next) : LedgerReaches allowed next

/-- A check that finds the failure of the plan is alone with it: no other check of the plan is
between its read and its update. -/
def Alone (tipPlanId : String) (state : LedgerState) (label : LedgerLabel) : Prop :=
  label = .finds tipPlanId → ∀ pending ∈ state.found, pending.1 ≠ tipPlanId

def LedgerEvent.tells (tipPlanId : String) : LedgerEvent → Bool
  | .returned other _ => other = tipPlanId
  | .recovered _ => false

/-- Between two recoveries of the plan at most one call returns its record. -/
def ToldOnce (tipPlanId : String) (events : List LedgerEvent) : Prop :=
  ∀ before between after, events = before ++ between ++ after → .recovered tipPlanId ∉ between →
    between.countP (LedgerEvent.tells tipPlanId) ≤ 1

section Told
variable {tipPlanId : String} {events : List LedgerEvent}

/-- How often the failure was told since the last recovery. -/
def LedgerEvent.tell (tipPlanId : String) (told : Nat) (event : LedgerEvent) : Nat :=
  if event = .recovered tipPlanId then 0 else if event.tells tipPlanId then told + 1 else told

def told (tipPlanId : String) (events : List LedgerEvent) : Nat := events.foldl (LedgerEvent.tell tipPlanId) 0

@[simp] theorem told_snoc (event : LedgerEvent) :
    told tipPlanId (events ++ [event]) = event.tell tipPlanId (told tipPlanId events) := by
  simp [told]

theorem told_append {between : List LedgerEvent} (apart : .recovered tipPlanId ∉ between) :
    told tipPlanId (events ++ between) = told tipPlanId events +
      between.countP (LedgerEvent.tells tipPlanId) := by
  induction between using List.reverseRecOn with
  | nil => simp
  | append_singleton between event ih =>
    rw [List.mem_append, not_or] at apart
    have other : event ≠ .recovered tipPlanId := fun same => apart.2 (List.mem_singleton.mpr same.symm)
    rw [← List.append_assoc, told_snoc, ih apart.1, LedgerEvent.tell, if_neg other, List.countP_append]
    by_cases tells : event.tells tipPlanId = true <;> simp [tells, Nat.add_assoc]

theorem toldOnce_of_prefixes (bound : ∀ before, before <+: events → told tipPlanId before ≤ 1) :
    ToldOnce tipPlanId events := by
  intro before between after split apart
  have least := bound (before ++ between) ⟨after, split.symm⟩
  rw [told_append apart] at least
  omega

theorem prefixes_snoc {event : LedgerEvent} (bound : ∀ before, before <+: events → told tipPlanId before ≤ 1)
    (last : told tipPlanId (events ++ [event]) ≤ 1) :
    ∀ before, before <+: events ++ [event] → told tipPlanId before ≤ 1 := by
  intro before starts
  rcases List.prefix_concat_iff.mp starts with rfl | shorter
  · exact last
  · exact bound before shorter

theorem told_recoveries (plans : List String)
    (bound : ∀ before, before <+: events → told tipPlanId before ≤ 1) :
    (∀ before, before <+: events ++ plans.map .recovered → told tipPlanId before ≤ 1) ∧
      told tipPlanId (events ++ plans.map .recovered) = if tipPlanId ∈ plans then 0
          else told tipPlanId events := by
  induction plans using List.reverseRecOn with
  | nil => simpa using bound
  | append_singleton plans plan ih =>
    obtain ⟨bounded, total⟩ := ih
    have one : told tipPlanId (events ++ plans.map .recovered ++ [LedgerEvent.recovered plan]) =
        if plan = tipPlanId then 0 else told tipPlanId (events ++ plans.map .recovered) := by
      rw [told_snoc]
      by_cases own : plan = tipPlanId <;> simp [LedgerEvent.tell, LedgerEvent.tells, own]
    have split : events ++ (plans ++ [plan]).map .recovered = events ++ plans.map .recovered ++
        [LedgerEvent.recovered plan] := by
      simp
    rw [split]
    constructor
    · apply prefixes_snoc bounded
      have last := bounded _ List.prefix_rfl
      rw [one]
      split <;> omega
    · rw [one, total]
      by_cases own : plan = tipPlanId
      · simp [own]
      · simp [own, Ne.symm own]

end Told

/-- The plan has no failure to tell of. -/
def Silent (tipPlanId : String) (plans : Plans) : Prop := ∀ row ∈ plans.get tipPlanId, ¬ row.Unannounced

section Silent
variable {plans : Plans} {tipPlanId : String} {enabled : Bool}

theorem Silent.beginPlan (silent : Silent tipPlanId plans) (request : Request) (now : Int) :
    Silent tipPlanId (beginPlan enabled request now plans) := by
  intro row held
  rw [beginPlan_get] at held
  split at held
  · cases held
    simp [Plan.Unannounced, Request.plan]
  · exact silent row held

theorem Silent.completePlan (silent : Silent tipPlanId plans) (own : String) (now : Int) :
    Silent tipPlanId (completePlan enabled own now plans) := by
  intro row held
  rw [completePlan_get] at held
  obtain ⟨old, there, rfl⟩ := Option.map_eq_some_iff.mp held
  split
  · simp [Plan.Unannounced]
  · exact silent old there

theorem Silent.failPlan {reason : String} (silent : Silent tipPlanId plans)
    (ordinary : reason ≠ restartFailureReason)
    (own : String) (now : Int) : Silent tipPlanId (failPlan enabled own reason now plans) := by
  intro row held
  rw [failPlan_get] at held
  obtain ⟨old, there, rfl⟩ := Option.map_eq_some_iff.mp held
  split
  · intro unannounced
    exact ordinary (restartFailureReason_take unannounced.2.1)
  · exact silent old there

theorem Silent.recover {retentionSeconds now : Int} (silent : Silent tipPlanId plans)
    (untouched : tipPlanId ∉ (recoverOrphanedPlans enabled retentionSeconds now plans).1.map RecoveredPlan.tipPlanId) :
    Silent tipPlanId (recoverOrphanedPlans enabled retentionSeconds now plans).2 := by
  cases enabled with
  | false => exact silent
  | true =>
    intro row held
    rw [recover_get, Option.mem_def, Option.filter_eq_some_iff, Option.map_eq_some_iff] at held
    obtain ⟨⟨old, present, rfl⟩, _⟩ := held
    obtain ⟨member, keyed⟩ := Table.get_eq_some.mp present
    have landed : old.status ≠ .inFlight := by
      intro flying
      apply untouched
      simp only [recoverOrphanedPlans, if_true, List.map_map, List.mem_map]
      exact ⟨old, List.mem_filter.mpr ⟨member, decide_eq_true flying⟩, Option.some.inj keyed⟩
    rw [Plan.swept, if_neg landed]
    exact silent old present

theorem acknowledge_get (own : String) :
    (acknowledge own plans).get tipPlanId =
      (plans.get tipPlanId).map fun row =>
          if row.tipPlanId = own then { row with acknowledged := true } else row := by
  rw [acknowledge, Table.get_update]

theorem silent_acknowledge (tipPlanId : String) (plans : Plans) :
    Silent tipPlanId (acknowledge tipPlanId plans) := by
  intro row held
  rw [acknowledge_get] at held
  obtain ⟨old, there, rfl⟩ := Option.map_eq_some_iff.mp held
  rw [if_pos (Option.some.inj (Table.get_eq_some.mp there).2)]
  simp [Plan.Unannounced]

theorem Silent.acknowledge (silent : Silent tipPlanId plans) (own : String) :
    Silent tipPlanId (acknowledge own plans) := by
  intro row held
  rw [acknowledge_get] at held
  obtain ⟨old, there, rfl⟩ := Option.map_eq_some_iff.mp held
  split
  · simp [Plan.Unannounced]
  · exact silent old there

theorem Silent.unfound (silent : Silent tipPlanId plans) :
    findRestartFailure enabled tipPlanId plans = none := by
  unfold findRestartFailure
  split
  · rw [List.find?_eq_none]
    intro row member found
    obtain ⟨same, unannounced⟩ := of_decide_eq_true found
    exact silent row (Table.get_eq_some.mpr ⟨member, congrArg some same⟩) unannounced
  · rfl

end Silent

/-- The checks of the plan that have found its failure. -/
def bearers (tipPlanId : String) (found : Multiset (String × Plan)) : Nat :=
  found.countP fun pending => pending.1 = tipPlanId

/-- Whoever holds the failure holds it alone, and once it is told the plan is silent until its next
recovery. -/
structure Discreet (tipPlanId : String) (state : LedgerState) : Prop where
  single : told tipPlanId state.events + bearers tipPlanId state.found ≤ 1
  silent : told tipPlanId state.events = 1 → Silent tipPlanId state.plans
  bound : ∀ before, before <+: state.events → told tipPlanId before ≤ 1

theorem LedgerStep.discreet {tipPlanId : String} {state next : LedgerState} {label : LedgerLabel}
    (step : LedgerStep state label next) (alone : Alone tipPlanId state label)
    (discreet : Discreet tipPlanId state) :
    Discreet tipPlanId next := by
  obtain ⟨single, silent, bound⟩ := discreet
  cases step with
  | beginPlan enabled request now => exact ⟨single, fun once => (silent once).beginPlan request now, bound⟩
  | completePlan enabled own now => exact ⟨single, fun once => (silent once).completePlan own now, bound⟩
  | failPlan enabled own now ordinary =>
      exact ⟨single, fun once => (silent once).failPlan ordinary own now, bound⟩
  | @recover plans found events enabled retentionSeconds now =>
    obtain ⟨bounded, total⟩ := told_recoveries
      ((recoverOrphanedPlans enabled retentionSeconds now plans).1.map RecoveredPlan.tipPlanId) bound
    rw [List.map_map] at bounded total
    refine ⟨?_, fun once => ?_, bounded⟩
    · change told tipPlanId (events ++ _) + bearers tipPlanId found ≤ 1
      change told tipPlanId events + bearers tipPlanId found ≤ 1 at single
      rw [Function.comp_def] at total
      rw [total]
      split <;> omega
    · change told tipPlanId (events ++ _) = 1 at once
      rw [Function.comp_def] at total
      rw [total] at once
      split at once
      · cases once
      next untouched => exact (silent once).recover untouched
  | @find plans found events enabled own row finds =>
    refine ⟨?_, silent, bound⟩
    by_cases mine : own = tipPlanId
    · subst mine
      have none : bearers own found = 0 := by
        rw [bearers, Multiset.countP_eq_zero]
        exact alone rfl
      have untold : told own events ≠ 1 := by
        intro once
        rw [(silent once).unfound] at finds
        cases finds
      simp only [bearers, Multiset.countP_cons, if_true] at single none ⊢
      omega
    · simpa [bearers, Multiset.countP_cons, mine] using single
  | @acknowledge plans found events own row =>
    by_cases mine : own = tipPlanId
    · subst mine
      have first : told own events = 0 ∧ bearers own found = 0 := by
        simp only [bearers, Multiset.countP_cons, if_true] at single ⊢
        omega
      have now : told own (events ++ [LedgerEvent.returned own row.failure]) = 1 := by
        simp [LedgerEvent.tell, LedgerEvent.tells, first.1]
      exact ⟨by simp only [now, first.2]; omega, fun _ => silent_acknowledge own plans, prefixes_snoc bound now.le⟩
    · have same : told tipPlanId (events ++ [LedgerEvent.returned own row.failure]) = told tipPlanId events := by
        simp [LedgerEvent.tell, LedgerEvent.tells, mine]
      refine ⟨?_, fun once => ?_, prefixes_snoc bound (same ▸ bound events List.prefix_rfl)⟩
      · simp only [same]
        simpa [bearers, Multiset.countP_cons, mine] using single
      · exact (silent (same ▸ once)).acknowledge own
  | @abandon plans found events own row =>
    refine ⟨?_, silent, bound⟩
    have fewer : bearers tipPlanId found ≤ bearers tipPlanId ((own, row) ::ₘ found) :=
      Multiset.countP_le_of_le _ (Multiset.le_cons_self _ _)
    exact (Nat.add_le_add_left fewer _).trans single

theorem LedgerReaches.discreet {tipPlanId : String} {state : LedgerState}
    (reaches : LedgerReaches (Alone tipPlanId) state) :
    Discreet tipPlanId state := by
  induction reaches with
  | start plans =>
    refine ⟨by simp [told, bearers], by simp [told], fun before starts => ?_⟩
    rw [List.prefix_nil.mp starts]
    exact Nat.zero_le _
  | step before may step ih => exact step.discreet may ih

/-- In every run in which no check finds the failure of the plan while another one has yet to
acknowledge it, the failure is told at most once between two recoveries. -/
theorem restart_failure_told_once {tipPlanId : String} {state : LedgerState}
    (reaches : LedgerReaches (Alone tipPlanId) state) : ToldOnce tipPlanId state.events :=
  toldOnce_of_prefixes reaches.discreet.bound

/-- A plan that the last process left in flight. -/
def orphan : Plan :=
  ⟨"plan", "req", "hash", "https://api.anthropic.com", false, .inFlight, "", 10, 10, none, false, 7⟩

def recoveredPlans : Plans := (recoverOrphanedPlans true defaultRetentionSeconds 20 ⟨[orphan], by decide⟩).2

theorem orphan_recovered (allowed : LedgerState → LedgerLabel → Prop) (free : ∀ state, allowed state .other) :
    LedgerReaches allowed ⟨recoveredPlans, 0, [.recovered "plan"]⟩ :=
  .step (.start ⟨[orphan], by decide⟩) (free _) (.recover true defaultRetentionSeconds 20)

theorem orphan_found :
    findRestartFailure true "plan" recoveredPlans = some (orphan.restarted 20) := by
  decide +kernel

theorem restart_failure_told_once_in_turn :
    ToldOnce "plan" [.recovered "plan", .returned "plan" (orphan.restarted 20).failure] := by
  have free : ∀ state, Alone "plan" state .other := fun _ label => nomatch label
  have start : LedgerReaches (Alone "plan") ⟨recoveredPlans, 0, [.recovered "plan"]⟩ :=
    orphan_recovered _ free
  have found :=
    start.step (fun _ pending member => absurd member (Multiset.notMem_zero pending))
      (.find orphan_found)
  exact restart_failure_told_once (found.step (free _) .acknowledge)

/-- Two requests read the failure before either has acknowledged it, and both are told. -/
theorem restart_failure_told_twice : ¬ (∀ (tipPlanId : String) (state : LedgerState),
    LedgerReaches (fun _ _ => True) state → ToldOnce tipPlanId state.events) := by
  intro law
  have start : LedgerReaches (fun _ _ => True) ⟨recoveredPlans, 0, [.recovered "plan"]⟩ :=
    orphan_recovered _ fun _ => trivial
  have both := (start.step trivial (.find orphan_found)).step trivial (.find orphan_found)
  have told := (both.step trivial .acknowledge).step trivial .acknowledge
  have twice := law "plan" _ told [.recovered "plan"] [_, _] [] rfl (by decide)
  exact absurd twice (by decide)

end TokenPak.Proxy.ExecutionLedger
