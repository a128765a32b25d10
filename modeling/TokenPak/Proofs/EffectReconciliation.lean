import TokenPak.Proofs.DeliveryReview

/-! What the planner concludes from the recorded effects of an interrupted station.
Planned effects are looked at first, and while there are any the applied ones are
not compared with the files. -/

namespace TokenPak.Dispatch
open Library

/-- An effect as a patch records it: on a file, planned and not finalized, or applied
with the hash of what was written. -/
structure Effect.Patch (effect : Effect) : Prop where
  file : effect.targetType = .file
  state : effect.status = .planned ∧ effect.finalized = false ∨ effect.status = .applied ∧
    effect.afterHash.isSome = true

/-- The file is as the effect left it. An effect of which only the state before is
recorded is there when that state is gone. -/
def Effect.Present (workspace : Workspace) (effect : Effect) : Prop :=
  match effect.afterHash with
  | some hash => currentHash workspace effect = some hash
  | none => currentHash workspace effect ≠ effect.beforeHash

/-- The recorded hash after the effect is the hash of the file. -/
def Effect.Landed (workspace : Workspace) (effect : Effect) : Prop :=
  effect.afterHash.isSome = true ∧ currentHash workspace effect = effect.afterHash

def ResumeOutcome.Applies (outcome : ResumeOutcome) (effect : Effect) : Prop :=
  effect.status = .applied ∨ effect.id ∈ outcome.promoteEffectIds

/-- A station is rerun when none of its effects is there, and passed over when all
of them are; otherwise its user decides. -/
structure ResumeOutcome.Sound (workspace : Workspace) (effects : List Effect)
    (outcome : ResumeOutcome) : Prop where
  rerun : outcome.action = .rerunStation → ∀ effect ∈ effects, ¬ effect.Present workspace
  passed : outcome.action = .continueNextStation ∨ outcome.action = .promoteAndContinue →
    ∀ effect ∈ effects, outcome.Applies effect ∧ effect.Landed workspace
  asked : (∃ effect ∈ effects, effect.Present workspace) →
    (∃ effect ∈ effects, ¬ (outcome.Applies effect ∧ effect.Landed workspace)) →
      outcome.action = .decisionRequired

/-- No applied effect contradicts what the planned ones say: if all of those are
still undone none is there, and if all are done every one is. -/
structure Unmixed (workspace : Workspace) (effects : List Effect) : Prop where
  undone : (∃ effect ∈ effects, effect.status = .planned) →
    (∀ effect ∈ effects, effect.status = .planned → plannedFinding workspace effect = .matchesBefore) →
    ∀ effect ∈ effects, effect.status = .applied → ¬ effect.Present workspace
  done : (∃ effect ∈ effects, effect.status = .planned) →
    (∀ effect ∈ effects, effect.status = .planned → plannedFinding workspace effect = .matchesAfter) →
    ∀ effect ∈ effects, effect.status = .applied → effect.Landed workspace

section planner
variable {workspace : Workspace} {effects : List Effect} {effect : Effect} {last : StationRun}

theorem plannedFinding_after : plannedFinding workspace effect = .matchesAfter ↔ effect.Landed workspace := by
  unfold plannedFinding Effect.Landed
  split
  next landed => exact ⟨fun _ => landed, fun _ => rfl⟩
  next other =>
    refine ⟨fun found => ?_, fun landed => absurd landed other⟩
    split at found <;> cases found

theorem absent_of_before (undone : plannedFinding workspace effect = .matchesBefore) :
    ¬ effect.Present workspace := by
  unfold plannedFinding at undone
  split at undone
  next => cases undone
  next other =>
    split at undone
    next before =>
      unfold Effect.Present
      split
      next hash recorded => exact fun same => other ⟨by rw [recorded]; rfl, same.trans recorded.symm⟩
      next => exact fun changed => changed before
    next => cases undone

theorem Effect.Patch.landed (patch : effect.Patch) (applied : effect.status = .applied) :
    effect.Landed workspace ↔ currentHash workspace effect = effect.afterHash := by
  obtain ⟨planned, -⟩ | ⟨-, recorded⟩ := patch.state
  · rw [applied] at planned
    cases planned
  · exact and_iff_right recorded

def plannedOf (effects : List Effect) : List Effect :=
  effects.filter fun effect => effect.status = .planned ∧ effect.finalized = false

def appliedOf (effects : List Effect) : List Effect := effects.filter fun effect => effect.status = .applied

theorem mem_plannedOf (patches : ∀ effect ∈ effects, effect.Patch) :
    effect ∈ plannedOf effects ↔ effect ∈ effects ∧ effect.status = .planned := by
  simp only [plannedOf, List.mem_filter, decide_eq_true_eq]
  refine and_congr_right fun member => and_iff_left_of_imp fun planned => ?_
  obtain ⟨-, open_⟩ | ⟨applied, -⟩ := (patches effect member).state
  · exact open_
  · rw [planned] at applied
    cases applied

theorem mem_appliedOf : effect ∈ appliedOf effects ↔ effect ∈ effects ∧ effect.status = .applied := by
  simp [appliedOf]

theorem Effect.Patch.planned_or_applied (patch : effect.Patch) :
    effect.status = .planned ∨ effect.status = .applied :=
  patch.state.imp And.left And.left

theorem reconcileRun_running {earlier : List StationRun} (running : last.status = .running) :
    reconcileRun (earlier ++ [last]) effects workspace =
      if appliedOf effects = [] ∧ plannedOf effects = [] then
        ⟨.rerunStation, some .failedInterrupted, none, some (last.attemptNumber + 1), [], [],
          "Last station was running with no effects; rerun with attempt+1."⟩
      else if plannedOf effects ≠ [] then reconcilePlanned workspace last (plannedOf effects)
      else reconcileApplied workspace last (appliedOf effects) := by
  simp only [reconcileRun, List.getLast?_append, List.getLast?_singleton, Option.some_or, running]
  rfl

theorem reconcilePlanned_action (workspace : Workspace) (last : StationRun) (planned : List Effect) :
    (reconcilePlanned workspace last planned).action =
        (if ∀ effect ∈ planned, plannedFinding workspace effect = .matchesAfter then .promoteAndContinue
        else if ∀ effect ∈ planned, plannedFinding workspace effect = .matchesBefore then .rerunStation
        else .decisionRequired) ∧
      ((∀ effect ∈ planned, plannedFinding workspace effect = .matchesAfter) →
        (reconcilePlanned workspace last planned).promoteEffectIds = planned.map Effect.id) := by
  have all (finding : Finding) : ((planned.map (plannedFinding workspace)).all (· = finding)) = true ↔
      ∀ effect ∈ planned, plannedFinding workspace effect = finding := by
    simp
  unfold reconcilePlanned
  dsimp only
  simp only [all]
  split
  next => exact ⟨rfl, fun _ => rfl⟩
  next mixed =>
    refine ⟨?_, fun done => absurd done mixed⟩
    split <;> rfl

theorem reconcileApplied_action (workspace : Workspace) (last : StationRun) (applied : List Effect) :
    (reconcileApplied workspace last applied).action =
      if ∀ effect ∈ applied, currentHash workspace effect = effect.afterHash then .continueNextStation
      else .decisionRequired := by
  have none_drifted : applied.filter (fun effect =>
    ! decide (currentHash workspace effect = effect.afterHash)) = [] ↔
      ∀ effect ∈ applied, currentHash workspace effect = effect.afterHash := by
    simp
  unfold reconcileApplied
  dsimp only
  split
  next consistent => rw [if_pos (none_drifted.mp consistent)]
  next first rest drifted => rw [if_neg fun all => by rw [none_drifted.mpr all] at drifted; cases drifted]

/-- What the planner concludes is sound when the two halves are: the third follows. -/
theorem ResumeOutcome.Sound.of_halves {outcome : ResumeOutcome}
    (rerun : outcome.action = .rerunStation → ∀ effect ∈ effects, ¬ effect.Present workspace)
    (passed : outcome.action = .continueNextStation ∨ outcome.action = .promoteAndContinue →
      ∀ effect ∈ effects, outcome.Applies effect ∧ effect.Landed workspace) : outcome.Sound workspace effects := by
  refine ⟨rerun, passed, ?_⟩
  rintro ⟨present, member, there⟩ ⟨missing, also, unfit⟩
  cases action : outcome.action with
  | decisionRequired => rfl
  | rerunStation => exact absurd there (rerun action present member)
  | continueNextStation => exact absurd (passed (.inl action) missing also) unfit
  | promoteAndContinue => exact absurd (passed (.inr action) missing also) unfit

end planner

section sound
variable {workspace : Workspace} {effects : List Effect} {last : StationRun}

/-- With planned effects among them, the applied ones decide whether the conclusion
from the planned ones is right. -/
theorem planned_sound_iff (patches : ∀ effect ∈ effects, effect.Patch)
    (some_planned : plannedOf effects ≠ []) :
    (reconcilePlanned workspace last (plannedOf effects)).Sound workspace effects ↔
      Unmixed workspace effects := by
  have members {effect : Effect} : effect ∈ plannedOf effects ↔ effect ∈ effects ∧ effect.status = .planned :=
    mem_plannedOf patches
  have all {finding : Finding} (found : ∀ effect ∈ effects, effect.status = .planned →
    plannedFinding workspace effect = finding) :
      ∀ effect ∈ plannedOf effects, plannedFinding workspace effect = finding := fun effect member =>
    found effect (members.mp member).1 (members.mp member).2
  obtain ⟨first, member⟩ := List.exists_mem_of_ne_nil _ some_planned
  obtain ⟨action, promoted⟩ := reconcilePlanned_action workspace last (plannedOf effects)
  constructor
  · intro sound
    constructor
    · intro _ undone effect present _
      -- the planned effects cannot all be found done as well
      have mixed : ¬ ∀ effect ∈ plannedOf effects,
          plannedFinding workspace effect = .matchesAfter :=
        fun done => by
        have both := (done first member).symm.trans (all undone first member)
        cases both
      refine sound.rerun ?_ effect present
      rw [action, if_neg mixed, if_pos (all undone)]
    · intro _ done effect present _
      refine (sound.passed ?_ effect present).2
      rw [action, if_pos (all done)]
      exact .inr rfl
  · intro unmixed
    have exists_planned : ∃ effect ∈ effects, effect.status = .planned := ⟨first, members.mp member⟩
    by_cases done : ∀ effect ∈ plannedOf effects, plannedFinding workspace effect = .matchesAfter
    · rw [if_pos done] at action
      refine .of_halves (fun rerun => by rw [action] at rerun; cases rerun) fun _ effect present => ?_
      have found : ∀ effect ∈ effects, effect.status = .planned →
          plannedFinding workspace effect = .matchesAfter :=
        fun effect present planned => done effect (members.mpr ⟨present, planned⟩)
      obtain planned | applied := (patches effect present).planned_or_applied
      · refine ⟨.inr ?_, plannedFinding_after.mp (found effect present planned)⟩
        rw [promoted done]
        exact List.mem_map_of_mem (members.mpr ⟨present, planned⟩)
      · exact ⟨.inl applied, unmixed.done exists_planned found effect present applied⟩
    · rw [if_neg done] at action
      refine .of_halves (fun rerun effect present => ?_) fun passed => ?_
      · rw [action] at rerun
        split at rerun
        next undone =>
          have found : ∀ effect ∈ effects, effect.status = .planned →
              plannedFinding workspace effect = .matchesBefore :=
            fun effect present planned => undone effect (members.mpr ⟨present, planned⟩)
          obtain planned | applied := (patches effect present).planned_or_applied
          · exact absent_of_before (found effect present planned)
          · exact unmixed.undone exists_planned found effect present applied
        next => cases rerun
      · rw [action] at passed
        split at passed <;> rcases passed with passed | passed <;> cases passed

theorem applied_sound (patches : ∀ effect ∈ effects, effect.Patch) (none_planned : plannedOf effects = []) :
    (reconcileApplied workspace last (appliedOf effects)).Sound workspace effects := by
  have action := reconcileApplied_action workspace last (appliedOf effects)
  refine .of_halves (fun rerun => ?_) fun passed effect present => ?_
  · rw [action] at rerun
    split at rerun <;> cases rerun
  · obtain planned | applied := (patches effect present).planned_or_applied
    · have member : effect ∈ plannedOf effects := (mem_plannedOf patches).mpr ⟨present, planned⟩
      rw [none_planned] at member
      cases member
    · rw [action] at passed
      split at passed
      next same =>
        exact ⟨.inl applied, ((patches effect present).landed applied).mpr (same effect (mem_appliedOf.mpr ⟨present, applied⟩))⟩
      next => rcases passed with passed | passed <;> cases passed

end sound

/-- The planner's conclusion about an interrupted station with any recorded patches
is sound exactly when its applied effects do not contradict its planned ones. -/
theorem reconcile_sound_iff (earlier : List StationRun) (last : StationRun) (effects : List Effect)
    (workspace : Workspace)
    (interrupted : last.status = .running) (patches : ∀ effect ∈ effects, effect.Patch) :
    (reconcileRun (earlier ++ [last]) effects workspace).Sound workspace effects ↔
      Unmixed workspace effects := by
  have unplanned (none_planned : plannedOf effects = []) : Unmixed workspace effects := by
    have absent : ¬ ∃ effect ∈ effects, effect.status = .planned := by
      rintro ⟨effect, planned⟩
      have member : effect ∈ plannedOf effects := (mem_plannedOf patches).mpr planned
      rw [none_planned] at member
      cases member
    exact ⟨fun planned => absurd planned absent, fun planned => absurd planned absent⟩
  rw [reconcileRun_running interrupted]
  split
  next empty =>
    have nothing : ∀ effect ∈ effects, False := by
      intro effect present
      obtain planned | applied := (patches effect present).planned_or_applied
      · have member : effect ∈ plannedOf effects := (mem_plannedOf patches).mpr ⟨present, planned⟩
        rw [empty.2] at member
        cases member
      · have member : effect ∈ appliedOf effects := mem_appliedOf.mpr ⟨present, applied⟩
        rw [empty.1] at member
        cases member
    refine iff_of_true (.of_halves ?_ ?_) (unplanned empty.2)
    · exact fun _ effect present => (nothing effect present).elim
    · exact fun _ effect present => (nothing effect present).elim
  next =>
    split
    next some_planned => exact planned_sound_iff patches some_planned
    next none_planned =>
      have none_planned : plannedOf effects = [] := not_not.mp none_planned
      exact iff_of_true (applied_sound patches none_planned) (unplanned none_planned)

/-! A station that stops between its first patch and its second. -/

def interruptedRun : StationRun := ⟨"stationrun_1", "build", .running, none, stationResultSchemaVersion, 1⟩

def appliedPatch : Effect :=
  ⟨"effect_1", "stationrun_1", .file, "parser.py", some "sha256:aa", some "sha256:bb", .applied, true, true⟩

def plannedPatch : Effect :=
  ⟨"effect_2", "stationrun_1", .file, "lexer.py", some "sha256:cc", none, .planned, false, false⟩

def halfPatched : Workspace := fun target =>
  if target = "parser.py" then some "sha256:bb" else if target = "lexer.py" then some "sha256:cc" else none

theorem halfPatched_patches : ∀ effect ∈ [appliedPatch, plannedPatch], effect.Patch := by
  intro effect member
  simp only [List.mem_cons, List.not_mem_nil, or_false] at member
  obtain rfl | rfl := member
  · exact ⟨rfl, .inr ⟨rfl, rfl⟩⟩
  · exact ⟨rfl, .inl ⟨rfl, rfl⟩⟩

theorem planned_only_sound :
    (reconcileRun ([] ++ [interruptedRun]) [plannedPatch] halfPatched).Sound halfPatched [plannedPatch] := by
  have patches : ∀ effect ∈ [plannedPatch], effect.Patch := fun effect member =>
    halfPatched_patches effect (List.mem_cons_of_mem _ member)
  refine (reconcile_sound_iff [] interruptedRun [plannedPatch] halfPatched rfl patches).mpr ⟨?_, ?_⟩
  all_goals
    intro _ _ effect member applied
    rw [List.mem_singleton.mp member] at applied
    cases applied

/-- The station is rerun though its first patch is in the file. -/
theorem half_patched_rerun :
    ¬∀ (earlier : List StationRun) (last : StationRun) (effects : List Effect) (workspace : Workspace),
      last.status = .running → (∀ effect ∈ effects, effect.Patch) →
      (reconcileRun (earlier ++ [last]) effects workspace).Sound workspace effects := by
  intro sound
  have judged := sound [] interruptedRun [appliedPatch, plannedPatch] halfPatched rfl halfPatched_patches
  have rerun : (reconcileRun ([] ++ [interruptedRun]) [appliedPatch,
      plannedPatch] halfPatched).action = .rerunStation := by
    decide +kernel
  refine judged.rerun rerun appliedPatch (.head _) ?_
  have there : currentHash halfPatched appliedPatch = some "sha256:bb" := by decide +kernel
  exact there

end TokenPak.Dispatch
