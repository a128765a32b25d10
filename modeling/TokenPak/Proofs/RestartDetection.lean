import TokenPak.Proxy.ExecutionLedger

/-! Whether a restart finds the plans that the previous process left unfinished.
Several requests may be in flight under one plan id and share its row, so the ledger
knows of an unfinished one only while the last call under the id is a `begin_plan`. -/

namespace TokenPak.Proxy.ExecutionLedger
open Library

/-- A reason given by the process that began the plan. The restart's own reason is
kept apart from these, so that the check at ingress can tell them from it. -/
abbrev OwnReason := { reason : String // reason ≠ restartFailureReason }

/-- A ledger call of a process that serves requests, which are told by their number. -/
inductive LedgerCall where
  | check (tipPlanId : String)
  | beginPlan (number : Nat) (now : Int)
  | completePlan (number : Nat) (now : Int)
  | failPlan (number : Nat) (reason : OwnReason) (now : Int)
  deriving DecidableEq

def LedgerCall.finishes (number : Nat) : LedgerCall → Bool
  | .completePlan other _ | .failPlan other _ _ => other = number
  | _ => false

/-- A call that follows the earlier ones: a request begins once, and finishes what it began. -/
def LedgerCall.Follows (past : List LedgerCall) : LedgerCall → Prop
  | .check _ => True
  | .beginPlan number _ => ∀ now, .beginPlan number now ∉ past
  | .completePlan number _ | .failPlan number _ _ => ∃ now, .beginPlan number now ∈ past

inductive Interleaved : List LedgerCall → Prop where
  | start : Interleaved []
  | call {past : List LedgerCall} {call : LedgerCall} (earlier : Interleaved past) (follows : call.Follows past) :
      Interleaved (past ++ [call])

section calls
variable (enabled : Bool) (requests : Nat → Request)

def LedgerCall.apply (plans : Plans) : LedgerCall → Plans
  | .check tipPlanId => (checkRestartRecoveredFailure enabled tipPlanId plans).2
  | .beginPlan number now => ExecutionLedger.beginPlan enabled (requests number) now plans
  | .completePlan number now => ExecutionLedger.completePlan enabled (requests number).tipPlanId now plans
  | .failPlan number reason now =>
      ExecutionLedger.failPlan enabled (requests number).tipPlanId reason.val now plans

def LedgerCall.concerns : LedgerCall → Option String
  | .check _ => none
  | .beginPlan number _ | .completePlan number _ | .failPlan number _ _ => some (requests number).tipPlanId

/-- Some request under the plan id had begun and not finished. -/
def Unfinished (past : List LedgerCall) (tipPlanId : String) : Prop :=
  ∃ number now, .beginPlan number now ∈ past ∧ (requests number).tipPlanId = tipPlanId ∧
    ∀ call ∈ past, call.finishes number = false

def lastUnder (past : List LedgerCall) (tipPlanId : String) : Option LedgerCall :=
  past.reverse.find? fun call => call.concerns requests = some tipPlanId

def LeftInFlight (past : List LedgerCall) (tipPlanId : String) : Prop :=
  ∃ number now, lastUnder requests past tipPlanId = some (.beginPlan number now)

/-- What happens between the recovery and the next check of a plan: calls under
other plan ids, and further restarts. -/
inductive Meanwhile where
  | call (call : LedgerCall)
  | restart (retentionSeconds now : Int)

/-- Nothing else looks at the plan, and the retention of its recovered row is not over. -/
def Meanwhile.Spares (tipPlanId : String) (recoveredAt : Int) : Meanwhile → Prop
  | .call (.check other) => other ≠ tipPlanId
  | .call made => made.concerns requests ≠ some tipPlanId
  | .restart retentionSeconds now => now - retentionSeconds ≤ recoveredAt

def Meanwhile.apply (plans : Plans) : Meanwhile → Plans
  | .call made => made.apply enabled requests plans
  | .restart retentionSeconds now => (recoverOrphanedPlans enabled retentionSeconds now plans).2

/-- The answer of the first check of the plan after a crash and the restart at `now`. -/
def nextCheck (start : Plans) (past : List LedgerCall) (retentionSeconds now : Int)
    (meanwhile : List Meanwhile)
    (tipPlanId : String) : Option RestartFailure :=
  let crashed := past.foldl (LedgerCall.apply enabled requests) start
  let recovered := (recoverOrphanedPlans enabled retentionSeconds now crashed).2
  (checkRestartRecoveredFailure enabled tipPlanId (meanwhile.foldl (Meanwhile.apply enabled requests) recovered)).1

/-- The next check within the retention period tells exactly whether a request under
the plan id was unfinished at the crash. -/
def Detects (start : Plans) (past : List LedgerCall) (tipPlanId : String) : Prop :=
  ∀ retentionSeconds now meanwhile, (∀ between ∈ meanwhile, between.Spares requests tipPlanId now) →
    ((nextCheck enabled requests start past retentionSeconds now meanwhile tipPlanId).isSome ↔
      Unfinished requests past tipPlanId)

end calls

/-! The row of one plan under each call. -/

/-- The plan was begun by this process and not finished. -/
def Plan.Flying (row : Plan) : Prop := row.status = .inFlight ∧ row.acknowledged = false

def Plan.Quiet (row : Plan) : Prop := row.status ≠ .inFlight ∧ ¬ row.Unannounced

section rows
variable {enabled : Bool} {requests : Nat → Request} {plans : Plans} {tipPlanId : String}

theorem beginPlan_get (request : Request) (now : Int) :
    (beginPlan enabled request now plans).get tipPlanId =
      if Records enabled tipPlanId ∧ request.tipPlanId = tipPlanId then some (request.plan now)
      else plans.get tipPlanId := by
  unfold beginPlan
  by_cases own : request.tipPlanId = tipPlanId
  · subst own
    by_cases recorded : Records enabled request.tipPlanId
    · have keyed : some (request.plan now).tipPlanId = some request.tipPlanId := rfl
      rw [if_pos recorded, if_pos ⟨recorded, rfl⟩, Table.get_upsert, if_pos keyed]
      cases held : plans.get request.tipPlanId with
      | none => rfl
      | some old =>
        have same : old.tipPlanId = request.tipPlanId := Option.some.inj (Table.get_eq_some.mp held).2
        rw [Option.elim_some, same]
        rfl
    · rw [if_neg recorded, if_neg fun both => recorded both.1]
  · have apart : ¬ (Records enabled tipPlanId ∧ request.tipPlanId = tipPlanId) := fun both => own both.2
    have unkeyed : some (request.plan now).tipPlanId ≠ some tipPlanId :=
      fun same => own (Option.some.inj same)
    rw [if_neg apart]
    split
    · rw [Table.get_upsert, if_neg unkeyed]
    · rfl

theorem update_get (own : String) (change : Plan → Plan)
    (keeps : ∀ row, some (change row).tipPlanId = some row.tipPlanId) :
    (plans.update (fun row => row.tipPlanId = own ∧ row.status = .inFlight) change keeps).get tipPlanId =
      (plans.get tipPlanId).map fun row => if own = tipPlanId ∧
          row.status = .inFlight then change row else row := by
  rw [Table.get_update]
  cases held : plans.get tipPlanId with
  | none => rfl
  | some row =>
    have same : row.tipPlanId = tipPlanId := Option.some.inj (Table.get_eq_some.mp held).2
    simp only [Option.map_some, same, eq_comm]

theorem finish_get (own : String) (change : Plan → Plan)
    (keeps : ∀ row, some (change row).tipPlanId = some row.tipPlanId) :
    (if Records enabled own then
      plans.update (fun row => row.tipPlanId = own ∧ row.status = .inFlight) change keeps
    else plans).get tipPlanId =
      (plans.get tipPlanId).map fun row =>
        if Records enabled tipPlanId ∧ own = tipPlanId ∧ row.status = .inFlight then change row else row := by
  by_cases same : own = tipPlanId
  · subst same
    by_cases recorded : Records enabled own
    · rw [if_pos recorded, update_get]
      simp [recorded]
    · rw [if_neg recorded]
      simp [recorded]
  · split
    · rw [update_get]
      simp [same]
    · simp [same]

theorem completePlan_get (own : String) (now : Int) :
    (completePlan enabled own now plans).get tipPlanId =
      (plans.get tipPlanId).map fun row =>
        if Records enabled tipPlanId ∧ own = tipPlanId ∧ row.status = .inFlight then
          { row with status := .completed, updatedAt := now }
        else row :=
  finish_get own _ _

theorem failPlan_get (own reason : String) (now : Int) :
    (failPlan enabled own reason now plans).get tipPlanId =
      (plans.get tipPlanId).map fun row =>
        if Records enabled tipPlanId ∧ own = tipPlanId ∧ row.status = .inFlight then
          { row with
            status := .failed, failureReason := String.ofList (reason.toList.take 200), updatedAt := now }
        else row :=
  finish_get own _ _

theorem check_none (quiet : ∀ row ∈ plans.get tipPlanId, ¬ row.Unannounced) :
    checkRestartRecoveredFailure enabled tipPlanId plans = (none, plans) := by
  unfold checkRestartRecoveredFailure
  have unseen : plans.rows.find? (fun row => row.tipPlanId = tipPlanId ∧ row.Unannounced) = none := by
    rw [List.find?_eq_none]
    intro row member found
    obtain ⟨same, unannounced⟩ := of_decide_eq_true found
    exact quiet row (Table.get_eq_some.mpr ⟨member, congrArg some same⟩) unannounced
  rw [unseen]
  split <;> rfl

variable {row : Plan}

theorem check_some (recorded : Records enabled tipPlanId) (held : plans.get tipPlanId = some row)
    (unannounced : row.Unannounced) :
    (checkRestartRecoveredFailure enabled tipPlanId plans).1 = some row.failure := by
  obtain ⟨member, keyed⟩ := Table.get_eq_some.mp held
  have same : row.tipPlanId = tipPlanId := Option.some.inj keyed
  cases found : plans.rows.find? fun row => row.tipPlanId = tipPlanId ∧ row.Unannounced with
  | none =>
    rw [List.find?_eq_none] at found
    exact absurd (decide_eq_true ⟨same, unannounced⟩) (found row member)
  | some first =>
    have seen := List.find?_some found
    obtain ⟨own, _⟩ := of_decide_eq_true seen
    obtain rfl : row = first :=
      Table.eq_of_key member (List.mem_of_find?_eq_some found) keyed (congrArg some own)
    unfold checkRestartRecoveredFailure
    rw [if_pos recorded, found]

theorem check_get_of_ne {other : String} (apart : other ≠ tipPlanId) :
    (checkRestartRecoveredFailure enabled other plans).2.get tipPlanId = plans.get tipPlanId := by
  unfold checkRestartRecoveredFailure
  split
  · split
    · rfl
    · rw [Table.get_update]
      cases held : plans.get tipPlanId with
      | none => rfl
      | some row =>
        have same : row.tipPlanId = tipPlanId := Option.some.inj (Table.get_eq_some.mp held).2
        rw [Option.map_some, if_neg fun equal => apart (equal.symm.trans same)]
  · rfl

def Plan.swept (now : Int) (row : Plan) : Plan := if row.status = .inFlight then row.restarted now else row

theorem markRestarted_get (found : List Plan) (now : Int) :
    (found.foldl (markRestarted now) plans).get tipPlanId =
      (plans.get tipPlanId).map fun row =>
        if ∃ other ∈ found, other.tipPlanId = tipPlanId then row.swept now else row := by
  induction found generalizing plans with
  | nil => simp
  | cons first found ih =>
    have one : (markRestarted now plans first).get tipPlanId = (plans.get tipPlanId).map fun row =>
        if first.tipPlanId = tipPlanId ∧ row.status = .inFlight then row.restarted now else row :=
          update_get _ _ _
    rw [List.foldl_cons, ih, one, Option.map_map]
    congr 1
    funext row
    by_cases own : first.tipPlanId = tipPlanId <;> by_cases flying : row.status = .inFlight <;>
      simp [own, flying, Plan.swept, Plan.restarted]

theorem recover_get (retentionSeconds now : Int) :
    (recoverOrphanedPlans true retentionSeconds now plans).2.get tipPlanId =
      ((plans.get tipPlanId).map (Plan.swept now)).filter fun row =>
        ¬ (0 < retentionSeconds ∧ row.status ≠ .inFlight ∧ row.updatedAt < now - retentionSeconds) := by
  have marked : ((plans.rows.filter fun row =>
    row.status = .inFlight).foldl (markRestarted now) plans).get tipPlanId =
      (plans.get tipPlanId).map (Plan.swept now) := by
    rw [markRestarted_get]
    cases held : plans.get tipPlanId with
    | none => rfl
    | some row =>
      obtain ⟨member, keyed⟩ := Table.get_eq_some.mp held
      rw [Option.map_some, Option.map_some]
      split
      · rfl
      · next absent =>
        have landed : row.status ≠ .inFlight := fun flying => absent
          ⟨row, List.mem_filter.mpr ⟨member, decide_eq_true flying⟩, Option.some.inj keyed⟩
        rw [Plan.swept, if_neg landed]
  have settled (row : Plan) : row.status = .completed ∨ row.status = .failed ↔ row.status ≠ .inFlight := by
    cases row.status <;> simp
  unfold recoverOrphanedPlans
  by_cases purging : 0 < retentionSeconds
  · simp only [if_true, Table.get_delete, marked, settled, purging, true_and]
  · simp only [if_true, if_neg purging, marked]
    cases plans.get tipPlanId <;> simp [purging, Option.filter]

theorem recover_quiet (retentionSeconds now : Int) (quiet : ∀ row ∈ plans.get tipPlanId, row.Quiet) :
    ∀ row ∈ (recoverOrphanedPlans enabled retentionSeconds now plans).2.get tipPlanId, row.Quiet := by
  cases enabled with
  | false => exact quiet
  | true =>
    intro row held
    rw [recover_get, Option.mem_def, Option.filter_eq_some_iff, Option.map_eq_some_iff] at held
    obtain ⟨⟨old, present, rfl⟩, _⟩ := held
    have landed := quiet old present
    rwa [Plan.swept, if_neg landed.1]

/-- A row whose restart failure nobody was told of stays until its retention is over. -/
theorem recover_unannounced {retentionSeconds now : Int} (held : plans.get tipPlanId = some row)
    (unannounced : row.Unannounced) (retained : now - retentionSeconds ≤ row.updatedAt) :
    (recoverOrphanedPlans enabled retentionSeconds now plans).2.get tipPlanId = some row := by
  cases enabled with
  | false => exact held
  | true =>
    have landed : row.status ≠ .inFlight := by rw [unannounced.1]; decide
    rw [recover_get, held, Option.map_some, Plan.swept, if_neg landed, Option.filter_eq_some_iff]
    refine ⟨rfl, decide_eq_true ?_⟩
    rintro ⟨_, _, overdue⟩
    omega

theorem recover_flying (retentionSeconds now : Int) (held : plans.get tipPlanId = some row)
    (flying : row.Flying) :
    (recoverOrphanedPlans true retentionSeconds now plans).2.get tipPlanId = some (row.restarted now) := by
  rw [recover_get, held, Option.map_some, Plan.swept, if_pos flying.1, Option.filter_eq_some_iff]
  refine ⟨rfl, decide_eq_true ?_⟩
  rintro ⟨positive, _, overdue⟩
  change now < now - retentionSeconds at overdue
  omega

theorem restarted_unannounced (flying : row.Flying) (now : Int) :
    (row.restarted now).Unannounced :=
  ⟨rfl, rfl, flying.2⟩

/-! A whole history. -/

theorem apply_get_of_unconcerned (call : LedgerCall) (unconcerned : call.concerns requests ≠ some tipPlanId)
    (untold : call = .check tipPlanId → ∀ row ∈ plans.get tipPlanId, ¬ row.Unannounced) :
    (call.apply enabled requests plans).get tipPlanId = plans.get tipPlanId := by
  cases call with
  | check other =>
    by_cases own : other = tipPlanId
    · subst own
      rw [LedgerCall.apply, check_none (untold rfl)]
    · exact check_get_of_ne own
  | beginPlan number now =>
    have apart : (requests number).tipPlanId ≠ tipPlanId := fun same => unconcerned (congrArg some same)
    rw [LedgerCall.apply, beginPlan_get, if_neg fun both => apart both.2]
  | completePlan number now =>
    have apart : (requests number).tipPlanId ≠ tipPlanId := fun same => unconcerned (congrArg some same)
    rw [LedgerCall.apply, completePlan_get]
    simp [apart]
  | failPlan number reason now =>
    have apart : (requests number).tipPlanId ≠ tipPlanId := fun same => unconcerned (congrArg some same)
    rw [LedgerCall.apply, failPlan_get]
    simp [apart]

theorem finish_quiet (call : LedgerCall) (quiet : ∀ row ∈ plans.get tipPlanId, row.Quiet)
    (finishing : ∀ number now, call ≠ .beginPlan number now) :
    ∀ row ∈ (call.apply enabled requests plans).get tipPlanId, row.Quiet := by
  have kept : (call.apply enabled requests plans).get tipPlanId = plans.get tipPlanId := by
    cases call with
    | check other => exact apply_get_of_unconcerned _ (nomatch ·) fun _ row held => (quiet row held).2
    | beginPlan number now => exact absurd rfl (finishing number now)
    | completePlan number now =>
      rw [LedgerCall.apply, completePlan_get]
      cases held : plans.get tipPlanId with
      | none => rfl
      | some row => simp [(quiet row held).1]
    | failPlan number reason now =>
      rw [LedgerCall.apply, failPlan_get]
      cases held : plans.get tipPlanId with
      | none => rfl
      | some row => simp [(quiet row held).1]
  rwa [kept]

theorem restartFailureReason_take {reason : String}
    (cut : String.ofList (reason.toList.take 200) = restartFailureReason) :
    reason = restartFailureReason := by
  have chars : reason.toList.take 200 = restartFailureReason.toList := by rw [← cut, String.toList_ofList]
  have short : (reason.toList.take 200).length = 22 := by rw [chars]; decide
  have whole : reason.toList.length ≤ 200 := by
    rw [List.length_take] at short
    omega
  rw [List.take_of_length_le whole] at chars
  exact String.toList_injective chars

theorem finish_flying {call : LedgerCall} (held : plans.get tipPlanId = some row)
    (flying : row.Flying) (recorded : Records enabled tipPlanId)
    (own : call.concerns requests = some tipPlanId)
    (finishing : ∀ number now, call ≠ .beginPlan number now) :
    ∀ row ∈ (call.apply enabled requests plans).get tipPlanId, row.Quiet := by
  cases call with
  | check other => cases own
  | beginPlan number now => exact absurd rfl (finishing number now)
  | completePlan number now =>
    cases own
    rw [LedgerCall.apply, completePlan_get, held]
    simp [recorded, flying.1, Plan.Quiet, Plan.Unannounced]
  | failPlan number reason now =>
    cases own
    rw [LedgerCall.apply, failPlan_get, held]
    have apart : String.ofList (reason.val.toList.take 200) ≠ restartFailureReason :=
      fun cut => reason.property (restartFailureReason_take cut)
    simp [recorded, flying.1, Plan.Quiet, Plan.Unannounced, apart]

end rows

section histories
variable {enabled : Bool} {requests : Nat → Request} {tipPlanId : String} {past : List LedgerCall}

theorem lastUnder_snoc (call : LedgerCall) :
    lastUnder requests (past ++ [call]) tipPlanId =
      if call.concerns requests = some tipPlanId then some call else lastUnder requests past tipPlanId := by
  unfold lastUnder
  rw [List.reverse_append, List.reverse_singleton, List.singleton_append, List.find?_cons]
  by_cases concerned : call.concerns requests = some tipPlanId <;> simp [concerned]

theorem Interleaved.begun (interleaved : Interleaved past) {call : LedgerCall} {number : Nat}
    (member : call ∈ past)
    (finishes : call.finishes number = true) : ∃ now, .beginPlan number now ∈ past := by
  induction interleaved with
  | start => exact absurd member List.not_mem_nil
  | @call past last earlier follows ih =>
    rcases List.mem_append.mp member with old | new
    · obtain ⟨now, begun⟩ := ih old
      exact ⟨now, List.mem_append_left _ begun⟩
    · obtain rfl := List.mem_singleton.mp new
      have own : ∃ now, .beginPlan number now ∈ past := by
        cases call with
        | check other => cases finishes
        | beginPlan other now => cases finishes
        | completePlan other now => cases of_decide_eq_true finishes; exact follows
        | failPlan other reason now => cases of_decide_eq_true finishes; exact follows
      obtain ⟨now, begun⟩ := own
      exact ⟨now, List.mem_append_left _ begun⟩

theorem concerns_of_finishes {call : LedgerCall} {number : Nat} (finishes : call.finishes number = true) :
    call.concerns requests = some (requests number).tipPlanId := by
  cases call with
  | check other => cases finishes
  | beginPlan other now => cases finishes
  | completePlan other now => cases of_decide_eq_true finishes; rfl
  | failPlan other reason now => cases of_decide_eq_true finishes; rfl

theorem Interleaved.unfinished (interleaved : Interleaved past)
    (left : LeftInFlight requests past tipPlanId) :
    Unfinished requests past tipPlanId := by
  obtain ⟨number, now, last⟩ := left
  refine ⟨number, now, ?_⟩
  induction interleaved with
  | start => cases last
  | @call past call earlier follows ih =>
    rw [lastUnder_snoc] at last
    split at last
    · next concerned =>
      cases last
      refine ⟨List.mem_append_right _ (List.mem_singleton_self _), Option.some.inj concerned, ?_⟩
      intro other member
      rcases List.mem_append.mp member with old | new
      · rw [Bool.eq_false_iff]
        intro finishes
        obtain ⟨since, begun⟩ := earlier.begun old finishes
        exact follows since begun
      · cases List.mem_singleton.mp new
        rfl
    · next unconcerned =>
      obtain ⟨begun, own, unfinished⟩ := ih last
      refine ⟨List.mem_append_left _ begun, own, fun other member => ?_⟩
      rcases List.mem_append.mp member with old | new
      · exact unfinished other old
      · cases List.mem_singleton.mp new
        rw [Bool.eq_false_iff]
        intro finishes
        exact unconcerned ((concerns_of_finishes finishes).trans (congrArg some own))

/-- The plan's row follows the last call made under its id. -/
theorem Interleaved.row {start : Plans} (interleaved : Interleaved past)
    (recorded : Records enabled tipPlanId)
    (fresh : ∀ row ∈ start.get tipPlanId, row.Quiet) :
    (LeftInFlight requests past tipPlanId ∧
      ∃ row, (past.foldl (LedgerCall.apply enabled requests) start).get tipPlanId = some row ∧ row.Flying) ∨
    (¬ LeftInFlight requests past tipPlanId ∧
      ∀ row ∈ (past.foldl (LedgerCall.apply enabled requests) start).get tipPlanId, row.Quiet) := by
  induction interleaved with
  | start =>
    right
    exact ⟨fun ⟨_, _, last⟩ => (nomatch last), fresh⟩
  | @call past call earlier follows ih =>
    rw [List.foldl_append, List.foldl_cons, List.foldl_nil]
    unfold LeftInFlight at ih ⊢
    rw [lastUnder_snoc]
    by_cases concerned : call.concerns requests = some tipPlanId
    · rw [if_pos concerned]
      by_cases finishing : ∀ number now, call ≠ .beginPlan number now
      · -- A finished plan has nothing in flight, whichever request began it last.
        right
        refine ⟨fun ⟨number, now, same⟩ => finishing number now (Option.some.inj same), ?_⟩
        rcases ih with ⟨_, row, held, flying⟩ | ⟨_, quiet⟩
        · exact finish_flying held flying recorded concerned finishing
        · exact finish_quiet call quiet finishing
      · push Not at finishing
        obtain ⟨number, now, rfl⟩ := finishing
        left
        refine ⟨⟨number, now, rfl⟩, (requests number).plan now, ?_, rfl, rfl⟩
        rw [LedgerCall.apply, beginPlan_get, if_pos ⟨recorded, Option.some.inj concerned⟩]
    · rw [if_neg concerned]
      have untold : ∀ row ∈ (past.foldl (LedgerCall.apply enabled requests) start).get tipPlanId,
          ¬ row.Unannounced := by
        intro row held
        rcases ih with ⟨_, flown, same, flying⟩ | ⟨_, quiet⟩
        · cases Option.some.inj (held.symm.trans same)
          intro told
          exact nomatch flying.1.symm.trans told.1
        · exact (quiet row held).2
      rw [apply_get_of_unconcerned call concerned fun _ => untold]
      exact ih

theorem unrecorded_row {start : Plans} (unrecorded : ¬ Records enabled tipPlanId)
    (fresh : ∀ row ∈ start.get tipPlanId, row.Quiet) :
    ∀ row ∈ (past.foldl (LedgerCall.apply enabled requests) start).get tipPlanId, row.Quiet := by
  induction past generalizing start with
  | nil => exact fresh
  | cons call past ih =>
    apply ih
    by_cases finishing : ∀ number now, call ≠ .beginPlan number now
    · exact finish_quiet call fresh finishing
    · push Not at finishing
      obtain ⟨number, now, rfl⟩ := finishing
      rw [LedgerCall.apply, beginPlan_get, if_neg fun both => unrecorded both.1]
      exact fresh

variable {plans : Plans} {recoveredAt : Int}

theorem Meanwhile.get_of_spares {between : Meanwhile} {row : Plan}
    (spares : between.Spares requests tipPlanId recoveredAt)
    (held : plans.get tipPlanId = some row) (unannounced : row.Unannounced)
    (since : row.updatedAt = recoveredAt) :
    (between.apply enabled requests plans).get tipPlanId = some row := by
  cases between with
  | restart retentionSeconds now =>
    apply recover_unannounced held unannounced
    rw [since]
    exact spares
  | call made =>
    rw [← held]
    cases made with
    | check other => exact check_get_of_ne spares
    | beginPlan number now => exact apply_get_of_unconcerned _ spares fun same => nomatch same
    | completePlan number now => exact apply_get_of_unconcerned _ spares fun same => nomatch same
    | failPlan number reason now => exact apply_get_of_unconcerned _ spares fun same => nomatch same

theorem Meanwhile.quiet_of_spares {between : Meanwhile}
    (spares : between.Spares requests tipPlanId recoveredAt)
    (quiet : ∀ row ∈ plans.get tipPlanId, row.Quiet) :
    ∀ row ∈ (between.apply enabled requests plans).get tipPlanId, row.Quiet := by
  cases between with
  | restart retentionSeconds now => exact recover_quiet retentionSeconds now quiet
  | call made =>
    rw [Meanwhile.apply]
    cases made with
    | check other => rw [LedgerCall.apply, check_get_of_ne spares]; exact quiet
    | beginPlan number now => rw [apply_get_of_unconcerned _ spares fun same => nomatch same]; exact quiet
    | completePlan number now => rw [apply_get_of_unconcerned _ spares fun same => nomatch same]; exact quiet
    | failPlan number reason now =>
        rw [apply_get_of_unconcerned _ spares fun same => nomatch same]; exact quiet

theorem meanwhile_get {meanwhile : List Meanwhile} {row : Plan}
    (spared : ∀ between ∈ meanwhile, between.Spares requests tipPlanId recoveredAt)
    (held : plans.get tipPlanId = some row) (unannounced : row.Unannounced)
    (since : row.updatedAt = recoveredAt) :
    (meanwhile.foldl (Meanwhile.apply enabled requests) plans).get tipPlanId = some row := by
  induction meanwhile generalizing plans with
  | nil => exact held
  | cons between meanwhile ih =>
    apply ih fun other member => spared other (List.mem_cons_of_mem _ member)
    exact Meanwhile.get_of_spares (spared between List.mem_cons_self) held unannounced since

theorem meanwhile_quiet {meanwhile : List Meanwhile}
    (spared : ∀ between ∈ meanwhile, between.Spares requests tipPlanId recoveredAt)
    (quiet : ∀ row ∈ plans.get tipPlanId, row.Quiet) :
    ∀ row ∈ (meanwhile.foldl (Meanwhile.apply enabled requests) plans).get tipPlanId, row.Quiet := by
  induction meanwhile generalizing plans with
  | nil => exact quiet
  | cons between meanwhile ih =>
    apply ih fun other member => spared other (List.mem_cons_of_mem _ member)
    exact Meanwhile.quiet_of_spares (spared between List.mem_cons_self) quiet

theorem nextCheck_isSome_iff {start : Plans} (interleaved : Interleaved past)
    (fresh : ∀ row ∈ start.get tipPlanId, row.Quiet) {retentionSeconds now : Int} {meanwhile : List Meanwhile}
    (spared : ∀ between ∈ meanwhile, between.Spares requests tipPlanId now) :
    (nextCheck enabled requests start past retentionSeconds now meanwhile tipPlanId).isSome ↔
      Records enabled tipPlanId ∧ LeftInFlight requests past tipPlanId := by
  have unanswered (quiet : ∀ row ∈ (past.foldl (LedgerCall.apply enabled requests) start).get tipPlanId, row.Quiet) :
      nextCheck enabled requests start past retentionSeconds now meanwhile tipPlanId = none := by
    exact congrArg Prod.fst <| check_none fun row held =>
      (meanwhile_quiet spared (recover_quiet retentionSeconds now quiet) row held).2
  by_cases recorded : Records enabled tipPlanId
  · rcases interleaved.row recorded fresh with ⟨left, row, held, flying⟩ | ⟨landed, quiet⟩
    · refine iff_of_true ?_ ⟨recorded, left⟩
      obtain rfl : enabled = true := recorded.1
      have recovered := recover_flying retentionSeconds now held flying
      have told := restarted_unannounced flying now
      rw [nextCheck, check_some recorded (meanwhile_get spared recovered told rfl) told]
      rfl
    · rw [unanswered quiet]
      exact iff_of_false (fun answered => nomatch answered) fun both => landed both.2
  · rw [unanswered (unrecorded_row recorded fresh)]
    exact iff_of_false (fun answered => nomatch answered) fun both => recorded both.1

end histories

/-- After a crash, the next check of a plan within the retention period tells exactly
whether a request under its id was unfinished, if and only if an unfinished one is
recorded and no call under the id finished the plan since the last `begin_plan`. -/
theorem restart_detected_iff (enabled : Bool) (requests : Nat → Request) (start : Plans)
    (past : List LedgerCall)
    (tipPlanId : String) (interleaved : Interleaved past) (fresh : ∀ row ∈ start.get tipPlanId, row.Quiet) :
    Detects enabled requests start past tipPlanId ↔
      (Unfinished requests past tipPlanId → Records enabled tipPlanId ∧
          LeftInFlight requests past tipPlanId) := by
  constructor
  · intro detects unfinished
    have spared : ∀ between ∈ [], Meanwhile.Spares requests tipPlanId 0 between :=
      fun _ member => nomatch member
    exact (nextCheck_isSome_iff interleaved fresh spared).mp ((detects 0 0 [] spared).mpr unfinished)
  · intro kept retentionSeconds now meanwhile spared
    rw [nextCheck_isSome_iff interleaved fresh spared]
    exact ⟨fun both => interleaved.unfinished both.2, kept⟩

def sharedPlan (number : Nat) : Request where
  tipPlanId := "plan"
  requestId := if number = 0 then "first" else "second"
  requestHash := ""
  targetUrl := ""
  streamStarted := false
  pid := 7

/-- Two requests under one plan id, the second after the first was answered. -/
def inTurn : List LedgerCall := [.beginPlan 0 10, .completePlan 0 11, .beginPlan 1 12]

theorem inTurn_interleaved : Interleaved inTurn := by
  have first : Interleaved ([] ++ [LedgerCall.beginPlan 0 10]) := .call .start (by simp [LedgerCall.Follows])
  have answered : Interleaved ([LedgerCall.beginPlan 0 10] ++ [.completePlan 0 11]) := .call first ⟨10, by decide⟩
  exact .call answered (by simp [LedgerCall.Follows])

/-- A crash while the second of two requests is in flight is told to the next one. -/
theorem restart_detected_in_turn : Detects true sharedPlan Table.empty inTurn "plan" :=
  (restart_detected_iff true sharedPlan Table.empty inTurn "plan" inTurn_interleaved
    fun _ held => nomatch held).mpr fun _ => ⟨⟨rfl, by decide⟩, 1, 12, by decide⟩

/-- The second of two requests under one plan id begins before the first is answered,
and is answered itself. -/
def overtaken : List LedgerCall := [.beginPlan 0 10, .beginPlan 1 11, .completePlan 1 12]

theorem overtaken_interleaved : Interleaved overtaken := by
  have first : Interleaved ([] ++ [LedgerCall.beginPlan 0 10]) := .call .start (by simp [LedgerCall.Follows])
  have second : Interleaved ([LedgerCall.beginPlan 0 10] ++ [.beginPlan 1 11]) :=
    .call first (by simp [LedgerCall.Follows])
  exact .call second ⟨11, by decide⟩

/-- A request is unfinished at the crash, and the next check of its plan finds nothing. -/
theorem overtaken_plan_lost :
    Interleaved overtaken ∧ Unfinished sharedPlan overtaken "plan" ∧
      nextCheck true sharedPlan Table.empty overtaken defaultRetentionSeconds 20 [] "plan" = none :=
  ⟨overtaken_interleaved, ⟨0, 10, by decide, rfl, by decide⟩, by decide +kernel⟩

end TokenPak.Proxy.ExecutionLedger
