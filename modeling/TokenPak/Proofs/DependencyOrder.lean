import Mathlib.Data.List.Nodup
import Mathlib.Logic.Relation
import TokenPak.Library.Transaction
import TokenPak.Orchestration.Workflow

/-! When a step of a workflow fails, one pass in declaration order skips the steps that depend
on it, and a skipped step counts as done. A dependent is out of reach of that pass when each of
its chains to the failed step goes through one that is declared later. -/

namespace TokenPak.Orchestration
open Library

section Declarations

def declared (steps : List WorkflowStep) : List (String × List String) :=
  steps.map fun step => (step.name, step.dependsOn)

variable {decl : List (String × List String)} {name dep other dependent : String} {steps : List WorkflowStep}

def DependsOn (decl : List (String × List String)) (name dep : String) :
    Prop := ∃ deps, (name, deps) ∈ decl ∧ dep ∈ deps

def Needs (decl : List (String × List String)) : String → String → Prop := Relation.TransGen (DependsOn decl)

inductive Reached (decl : List (String × List String)) (name : String) : String → Prop where
  | direct {dependent : String} (depends : DependsOn decl dependent name) : Reached decl name dependent
  | next {middle dependent : String} (reached : Reached decl name middle) (depends : DependsOn decl dependent middle)
      (before : [middle, dependent].Sublist (decl.map Prod.fst)) : Reached decl name dependent

def Ordered (decl : List (String × List String)) : Prop :=
  ∀ name dependent, Needs decl dependent name → Reached decl name dependent

theorem Reached.needs (reached : Reached decl name dependent) : Needs decl dependent name := by
  induction reached with
  | direct depends => exact .single depends
  | next _ depends _ ih => exact .head depends ih

/-- It is enough that steps are declared after those they depend on. -/
theorem ordered_of_declared_after (after : ∀ name dep, DependsOn decl name dep →
    [dep, name].Sublist (decl.map Prod.fst)) :
    Ordered decl := by
  intro name dependent needs
  induction needs using Relation.TransGen.head_induction_on with
  | single depends => exact .direct depends
  | head depends _ ih => exact .next ih depends (after _ _ depends)

def Is (steps : List WorkflowStep) (name : String) (status : StepStatus) : Prop :=
  ∃ step ∈ steps, step.name = name ∧ step.status = status

theorem declared_names (steps : List WorkflowStep) :
    (declared steps).map Prod.fst = steps.map WorkflowStep.name := by
  simp [declared]

theorem DependsOn.step (depends : DependsOn (declared steps) name dep) :
    ∃ step ∈ steps, step.name = name ∧ dep ∈ step.dependsOn := by
  obtain ⟨deps, member, inside⟩ := depends
  obtain ⟨step, among, same⟩ := List.mem_map.mp member
  cases same
  exact ⟨step, among, rfl, inside⟩

theorem dependsOn_of_mem {step : WorkflowStep} (member : step ∈ steps) (inside : dep ∈ step.dependsOn) :
    DependsOn (declared steps) step.name dep :=
  ⟨step.dependsOn, List.mem_map.mpr ⟨step, member, rfl⟩, inside⟩

end Declarations

section Edits
variable {steps : List WorkflowStep} {name : String} {failed : List String}

theorem editStep_eq_map (distinct : (steps.map WorkflowStep.name).Nodup)
    (edit : WorkflowStep → WorkflowStep) :
    editStep name edit steps = steps.map fun step => if step.name = name then edit step else step := by
  induction steps with
  | nil => rfl
  | cons step steps ih =>
    rw [List.map_cons, List.nodup_cons] at distinct
    rw [editStep, List.map_cons]
    split
    next same =>
      have others : steps.map (fun step => if step.name = name then edit step else step) = steps.map id := by
        apply List.map_congr_left
        intro other member
        apply if_neg
        intro clash
        apply distinct.1
        rw [same, ← clash]
        exact List.mem_map_of_mem member
      rw [others, List.map_id]
    next => rw [ih distinct.2]

/-- The names of the steps that the pass skips. -/
def skipped (failed : List String) : List WorkflowStep → List String
  | [] => []
  | step :: steps =>
    if step.status = .pending ∧ ∃ dep ∈ step.dependsOn,
      dep ∈ failed then step.name :: skipped (step.name :: failed) steps
    else skipped failed steps

theorem skipped_step (member : name ∈ skipped failed steps) :
    ∃ step ∈ steps, step.name = name ∧ step.status = .pending := by
  induction steps generalizing failed with
  | nil => cases member
  | cons step steps ih =>
    rw [skipped] at member
    split at member
    next skips =>
      rcases List.mem_cons.mp member with here | later
      · exact ⟨step, List.mem_cons_self, here.symm, skips.1⟩
      · obtain ⟨other, inside, facts⟩ := ih later
        exact ⟨other, List.mem_cons_of_mem _ inside, facts⟩
    next =>
      obtain ⟨other, inside, facts⟩ := ih member
      exact ⟨other, List.mem_cons_of_mem _ inside, facts⟩

theorem skipDependents_eq_map (distinct : (steps.map WorkflowStep.name).Nodup) :
    skipDependents failed steps =
      steps.map fun step =>
          if step.name ∈ skipped failed steps then { step with status := .skipped } else step := by
  induction steps generalizing failed with
  | nil => rfl
  | cons step steps ih =>
    rw [List.map_cons, List.nodup_cons] at distinct
    have absent (names : List String) : step.name ∉ skipped names steps := by
      intro member
      obtain ⟨other, inside, same, _⟩ := skipped_step member
      exact distinct.1 (same ▸ List.mem_map_of_mem inside)
    have apart (other : WorkflowStep) (inside : other ∈ steps) : other.name ≠ step.name := by
      intro same
      exact distinct.1 (same ▸ List.mem_map_of_mem inside)
    rw [skipDependents, skipped, List.map_cons]
    split
    next =>
      rw [ih distinct.2, if_pos List.mem_cons_self]
      congr 1
      apply List.map_congr_left
      intro other inside
      simp [apart other inside]
    next => rw [ih distinct.2, if_neg (absent failed)]

/-- The pass looks only at names, dependencies and at who is pending. -/
theorem skipped_map {edit : WorkflowStep → WorkflowStep} (names : ∀ step, (edit step).name = step.name)
    (deps : ∀ step, (edit step).dependsOn = step.dependsOn)
    (waits : ∀ step ∈ steps, ((edit step).status = .pending) = (step.status = .pending)) :
    skipped failed (steps.map edit) = skipped failed steps := by
  induction steps generalizing failed with
  | nil => rfl
  | cons step steps ih =>
    have rest (failed : List String) : skipped failed (steps.map edit) = skipped failed steps :=
      ih fun other inside => waits other (List.mem_cons_of_mem _ inside)
    simp only [List.map_cons, skipped, names, deps, waits step List.mem_cons_self, rest]

theorem skipped_closed (good : String → Prop) (holds : ∀ other ∈ failed, good other)
    (closed : ∀ step ∈ steps, ∀ dep ∈ step.dependsOn, good dep → good step.name)
    (member : name ∈ skipped failed steps) :
    good name := by
  induction steps generalizing failed with
  | nil => cases member
  | cons step steps ih =>
    have rest : ∀ step ∈ steps, ∀ dep ∈ step.dependsOn, good dep → good step.name :=
      fun other inside => closed other (List.mem_cons_of_mem _ inside)
    rw [skipped] at member
    split at member
    next skips =>
      obtain ⟨_, dep, inside, among⟩ := skips
      have here : good step.name := closed step List.mem_cons_self dep inside (holds dep among)
      rcases List.mem_cons.mp member with same | later
      · exact same ▸ here
      · refine ih ?_ rest later
        intro other inside
        rcases List.mem_cons.mp inside with same | old
        · exact same ▸ here
        · exact holds other old
    next => exact ih holds rest member

theorem mem_skipped {step : WorkflowStep} {dep : String} (member : step ∈ steps)
    (pending : step.status = .pending)
    (inside : dep ∈ step.dependsOn) (among : dep ∈ failed) : step.name ∈ skipped failed steps := by
  induction steps generalizing failed with
  | nil => cases member
  | cons head steps ih =>
    rw [skipped]
    rcases List.mem_cons.mp member with same | rest
    · subst same
      rw [if_pos ⟨pending, dep, inside, among⟩]
      exact List.mem_cons_self
    · split
      · exact List.mem_cons_of_mem _ (ih rest (List.mem_cons_of_mem _ among))
      · exact ih rest among

theorem mem_skipped_after (distinct : (steps.map WorkflowStep.name).Nodup) {step : WorkflowStep}
    {dep : String}
    (member : step ∈ steps) (pending : step.status = .pending) (inside : dep ∈ step.dependsOn)
    (among : dep ∈ skipped failed steps) (before : [dep, step.name].Sublist (steps.map WorkflowStep.name)) :
    step.name ∈ skipped failed steps := by
  induction steps generalizing failed with
  | nil => cases member
  | cons head steps ih =>
    rw [List.map_cons] at distinct before
    obtain ⟨fresh, distinct⟩ := List.nodup_cons.mp distinct
    have behind : step.name ∈ steps.map WorkflowStep.name := by
      cases before with
      | cons _ rest => exact rest.subset (by simp)
      | cons_cons _ rest => exact rest.subset (by simp)
    have rest : step ∈ steps := by
      rcases List.mem_cons.mp member with same | rest
      · subst same
        exact absurd behind fresh
      · exact rest
    rw [skipped] at among ⊢
    split at among
    next skips =>
      rw [if_pos skips]
      apply List.mem_cons_of_mem
      rcases List.mem_cons.mp among with here | later
      · exact mem_skipped rest pending inside (here ▸ List.mem_cons_self)
      · refine ih distinct rest later ?_
        cases before with
        | cons _ rest => exact rest
        | cons_cons _ _ =>
          obtain ⟨other, place, same, _⟩ := skipped_step later
          exact absurd (same ▸ List.mem_map_of_mem place) fresh
    next stays =>
      rw [if_neg stays]
      refine ih distinct rest among ?_
      cases before with
      | cons _ rest => exact rest
      | cons_cons _ _ =>
        obtain ⟨other, place, same, _⟩ := skipped_step among
        exact absurd (same ▸ List.mem_map_of_mem place) fresh

end Edits

section Soundness
variable {decl : List (String × List String)} {steps : List WorkflowStep} {wf : WorkflowRecord}

def StepStatus.isBegun : StepStatus → Bool
  | .running | .completed | .failed => true
  | .pending | .skipped => false

/-- Steps run behind what they depend on, and those behind a failed step are skipped. -/
structure Sound (decl : List (String × List String)) (steps : List WorkflowStep) : Prop where
  declared : declared steps = decl
  settled : ∀ step ∈ steps, step.status.isBegun → ∀ dep, Needs decl step.name dep → Is steps dep .completed
  spread : ∀ step ∈ steps, step.status = .failed → ∀ other ∈ steps,
    Needs decl other.name step.name → other.status = .skipped
  caused : ∀ step ∈ steps, step.status = .skipped → ∃ other ∈ steps, other.status = .failed ∧
    Needs decl step.name other.name

theorem Sound.distinct (sound : Sound decl steps) (names : (decl.map Prod.fst).Nodup) :
    (steps.map WorkflowStep.name).Nodup := by
  rwa [← declared_names, sound.declared]

variable {step : WorkflowStep} {name : String}

theorem eq_of_name (distinct : (steps.map WorkflowStep.name).Nodup) {other : WorkflowStep}
    (member : step ∈ steps) (inside : other ∈ steps) (same : step.name = other.name) :
    step = other :=
  List.inj_on_of_nodup_map distinct member inside same

theorem Is.status (distinct : (steps.map WorkflowStep.name).Nodup) {status : StepStatus}
    (found : Is steps name status) (member : step ∈ steps) (named : step.name = name) :
    step.status = status := by
  obtain ⟨other, inside, same, holds⟩ := found
  rwa [← eq_of_name distinct inside member (same.trans named.symm)]

/-- An edit that leaves the declarations and the completed, failed and skipped steps as they are. -/
structure Progress (steps : List WorkflowStep) (edit : WorkflowStep → WorkflowStep) : Prop where
  name : ∀ step, (edit step).name = step.name
  deps : ∀ step, (edit step).dependsOn = step.dependsOn
  final : ∀ step ∈ steps, step.isTerminal → (edit step).status = step.status

theorem Progress.is {edit : WorkflowStep → WorkflowStep} (progress : Progress steps edit)
    {status : StepStatus} (found : Is steps name status)
    (terminal : status = .completed ∨ status = .failed ∨ status = .skipped) :
    Is (steps.map edit) name status := by
  obtain ⟨step, member, same, stands⟩ := found
  refine ⟨edit step, List.mem_map_of_mem member, (progress.name step).trans same, ?_⟩
  rw [progress.final step member, stands]
  rcases terminal with completed | failed | skipped
  · simp [WorkflowStep.isTerminal, stands, completed]
  · simp [WorkflowStep.isTerminal, stands, failed]
  · simp [WorkflowStep.isTerminal, stands, skipped]

theorem Sound.map (sound : Sound decl steps) {edit : WorkflowStep → WorkflowStep}
    (progress : Progress steps edit)
    (settled : ∀ step ∈ steps, (edit step).status.isBegun → ¬ step.status.isBegun →
      ∀ dep, Needs decl step.name dep → Is steps dep .completed)
    (spread : ∀ step ∈ steps, (edit step).status = .failed → step.status ≠ .failed →
      ∀ other ∈ steps, Needs decl other.name step.name → (edit other).status = .skipped)
    (caused : ∀ step ∈ steps, (edit step).status = .skipped → step.status ≠ .skipped →
      ∃ other ∈ steps, (edit other).status = .failed ∧ Needs decl step.name other.name) :
    Sound decl (steps.map edit) := by
  obtain ⟨name, deps, final⟩ := progress
  have completed (dep : String) (before : Is steps dep .completed) : Is (steps.map edit) dep .completed :=
    Progress.is ⟨name, deps, final⟩ before (.inl rfl)
  constructor
  · rw [← sound.declared]
    simp [Orchestration.declared, Function.comp_def, name, deps]
  · intro after member begun dep needs
    obtain ⟨step, inside, rfl⟩ := List.mem_map.mp member
    rw [name] at needs
    apply completed
    by_cases already : step.status.isBegun
    · exact sound.settled step inside already dep needs
    · exact settled step inside begun already dep needs
  · intro after member failed other among needs
    obtain ⟨step, inside, rfl⟩ := List.mem_map.mp member
    obtain ⟨dependent, place, rfl⟩ := List.mem_map.mp among
    rw [name, name] at needs
    by_cases already : step.status = .failed
    · have skipped := sound.spread step inside already dependent place needs
      rw [final dependent place (by simp [WorkflowStep.isTerminal, skipped]), skipped]
    · exact spread step inside failed already dependent place needs
  · intro after member skipped
    obtain ⟨step, inside, rfl⟩ := List.mem_map.mp member
    rw [name]
    by_cases already : step.status = .skipped
    · obtain ⟨other, place, failed, needs⟩ := sound.caused step inside already
      refine ⟨edit other, List.mem_map_of_mem place, ?_, (name other).symm ▸ needs⟩
      rw [final other place (by simp [WorkflowStep.isTerminal, failed]), failed]
    · obtain ⟨other, place, failed, needs⟩ := caused step inside skipped already
      exact ⟨edit other, List.mem_map_of_mem place, failed, (name other).symm ▸ needs⟩

theorem requeue_progress : Progress steps WorkflowStep.requeue := by
  constructor
  · intro step
    unfold WorkflowStep.requeue
    split <;> rfl
  · intro step
    unfold WorkflowStep.requeue
    split <;> rfl
  · intro step _ terminal
    unfold WorkflowStep.requeue
    split
    next running => simp [WorkflowStep.isTerminal, running] at terminal
    next => rfl

theorem Sound.requeue (sound : Sound decl steps) : Sound decl (steps.map WorkflowStep.requeue) := by
  apply sound.map requeue_progress
  · intro step _ begun idle
    unfold WorkflowStep.requeue at begun
    split at begun
    · cases begun
    · exact absurd begun idle
  · intro step _ failed fresh
    unfold WorkflowStep.requeue at failed
    split at failed
    · cases failed
    · exact absurd failed fresh
  · intro step _ skipped fresh
    unfold WorkflowStep.requeue at skipped
    split at skipped
    · cases skipped
    · exact absurd skipped fresh

theorem Sound.ready (sound : Sound decl steps) (distinct : (steps.map WorkflowStep.name).Nodup)
    (member : step ∈ steps) (pending : step.status = .pending)
    (done : ∀ dep ∈ step.dependsOn, ∃ other ∈ steps, other.name = dep ∧ other.isDone) :
    ∀ dep, Needs decl step.name dep → Is steps dep .completed := by
  have direct (dep : String) (depends : DependsOn decl step.name dep) :
      ∃ other ∈ steps, other.name = dep ∧ other.status = .completed := by
    have inside : dep ∈ step.dependsOn := by
      rw [← sound.declared] at depends
      obtain ⟨twin, place, same, inside⟩ := depends.step
      rwa [eq_of_name distinct place member same] at inside
    obtain ⟨other, place, same, finished⟩ := done dep inside
    refine ⟨other, place, same, ?_⟩
    simp only [WorkflowStep.isDone, Bool.or_eq_true, decide_eq_true_eq] at finished
    rcases finished with completed | skipped
    · exact completed
    · obtain ⟨cause, among, failed, needs⟩ := sound.caused other place skipped
      have behind : Needs decl step.name cause.name := .head (same ▸ depends) needs
      rw [sound.spread cause among failed step member behind] at pending
      cases pending
  intro dep needs
  rcases Relation.TransGen.head'_iff.mp needs with ⟨middle, depends, rest⟩
  obtain ⟨other, place, same, completed⟩ := direct middle depends
  rcases Relation.reflTransGen_iff_eq_or_transGen.mp rest with here | further
  · exact ⟨other, place, same.trans here.symm, completed⟩
  · exact sound.settled other place (by rw [completed]; rfl) dep (same ▸ further)

theorem editStep_progress (distinct : (steps.map WorkflowStep.name).Nodup) {status : StepStatus}
    (found : Is steps name status) (unfinished : status = .pending ∨ status = .running)
    (edit : WorkflowStep → WorkflowStep) (names : ∀ step, (edit step).name = step.name)
    (deps : ∀ step, (edit step).dependsOn = step.dependsOn) :
    Progress steps fun step => if step.name = name then edit step else step := by
  constructor
  · intro step
    split
    · exact names step
    · rfl
  · intro step
    split
    · exact deps step
    · rfl
  · intro step member terminal
    split
    next same =>
      rw [WorkflowStep.isTerminal, found.status distinct member same] at terminal
      rcases unfinished with rfl | rfl <;> cases terminal
    next => rfl

theorem Sound.begin (sound : Sound decl steps) (distinct : (steps.map WorkflowStep.name).Nodup)
    (now : Int) (member : step ∈ steps) (pending : step.status = .pending)
    (done : ∀ dep ∈ step.dependsOn, ∃ other ∈ steps, other.name = dep ∧ other.isDone) :
    Sound decl (editStep step.name (WorkflowStep.begin now) steps) := by
  rw [editStep_eq_map distinct]
  apply sound.map (editStep_progress distinct ⟨step, member, rfl,
    pending⟩ (.inl rfl) (.begin now) (fun _ => rfl) fun _ => rfl)
  · intro other place begun idle
    split at begun
    next same =>
      rw [same]
      exact sound.ready distinct member pending done
    next => exact absurd begun idle
  · intro other _ failed fresh
    split at failed
    · cases failed
    · exact absurd failed fresh
  · intro other _ skipped fresh
    split at skipped
    · cases skipped
    · exact absurd skipped fresh

theorem Sound.complete (sound : Sound decl steps) (distinct : (steps.map WorkflowStep.name).Nodup)
    (now : Int) (running : Is steps name .running) :
    Sound decl (editStep name (WorkflowStep.complete now) steps) := by
  rw [editStep_eq_map distinct]
  apply sound.map (editStep_progress distinct running (.inr rfl) (.complete now) (fun _ => rfl) fun _ => rfl)
  · intro other place begun idle
    split at begun
    next same =>
      have status := running.status distinct place same
      simp [status, StepStatus.isBegun] at idle
    next => exact absurd begun idle
  · intro other _ failed fresh
    split at failed
    · cases failed
    · exact absurd failed fresh
  · intro other _ skipped fresh
    split at skipped
    · cases skipped
    · exact absurd skipped fresh

theorem Sound.waiting (sound : Sound decl steps) (distinct : (steps.map WorkflowStep.name).Nodup)
    (running : Is steps name .running) (member : step ∈ steps) (needs : Needs decl step.name name) :
    step.status = .pending ∨ step.status = .skipped := by
  obtain ⟨holder, place, same, status⟩ := running
  have idle : ¬ step.status.isBegun := by
    intro begun
    have completed := sound.settled step member begun name needs
    rw [completed.status distinct place same] at status
    cases status
  cases stands : step.status with
  | pending => exact .inl rfl
  | skipped => exact .inr rfl
  | running | completed | failed =>
    rw [stands] at idle
    exact absurd rfl idle

/-- The pass comes to every waiting dependent that it can reach. -/
theorem Sound.reaches (sound : Sound decl steps) (distinct : (steps.map WorkflowStep.name).Nodup)
    {dependent : String} (running : Is steps name .running)
    (reached : Reached decl name dependent) (member : step ∈ steps) (same : step.name = dependent)
    (pending : step.status = .pending) : dependent ∈ skipped [name] steps := by
  have own {dependent dep : String} {step : WorkflowStep} (member : step ∈ steps)
    (same : step.name = dependent)
      (depends : DependsOn decl dependent dep) : dep ∈ step.dependsOn := by
    rw [← sound.declared] at depends
    obtain ⟨twin, place, named, inside⟩ := depends.step
    rwa [eq_of_name distinct place member (named.trans same.symm)] at inside
  induction reached generalizing step with
  | direct depends => exact same ▸ mem_skipped member pending (own member same depends) List.mem_cons_self
  | @next middle dependent reached depends before ih =>
    subst same
    rw [← sound.declared, declared_names] at before
    have known : middle ∈ steps.map WorkflowStep.name := before.subset (by simp)
    obtain ⟨between, place, named⟩ := List.mem_map.mp known
    rcases sound.waiting distinct running place (named ▸ reached.needs) with waits | skipped
    · exact mem_skipped_after distinct member pending (own member rfl depends) (ih place named waits) before
    · obtain ⟨cause, among, failed, needs⟩ := sound.caused between place skipped
      have behind : Needs decl step.name cause.name := .head depends (named ▸ needs)
      rw [sound.spread cause among failed step member behind] at pending
      cases pending

/-- The step fails and its dependents are skipped in one go. -/
theorem fail_eq_map (distinct : (steps.map WorkflowStep.name).Nodup) (now : Int) (error : String)
    (running : Is steps name .running) :
    skipDependents [name] (editStep name (WorkflowStep.fail now error) steps) = steps.map fun step =>
      if step.name = name then step.fail now error
      else if step.name ∈ skipped [name] steps then { step with status := .skipped } else step := by
  have names (step : WorkflowStep) : (if step.name = name then step.fail now error else step).name =
      step.name := by
    split <;> rfl
  have same_pass : skipped [name]
    (steps.map fun step => if step.name = name then step.fail now error else step) =
      skipped [name] steps := by
    apply skipped_map names
    · intro step
      split <;> rfl
    · intro step member
      split
      next same =>
        have status := running.status distinct member same
        simp [WorkflowStep.fail, status]
      next => rfl
  have distinct_after : ((steps.map fun step => if step.name = name then step.fail now error else step).map
      WorkflowStep.name).Nodup := by
    simpa only [List.map_map, Function.comp_def, names] using distinct
  rw [editStep_eq_map distinct, skipDependents_eq_map distinct_after, same_pass, List.map_map]
  apply List.map_congr_left
  intro step member
  simp only [Function.comp_apply, names]
  by_cases same : step.name = name
  · have spared : step.name ∉ skipped [name] steps := by
      intro among
      obtain ⟨other, place, alike, pending⟩ := skipped_step among
      rw [eq_of_name distinct place member alike, running.status distinct member same] at pending
      cases pending
    rw [if_neg spared, if_pos same, if_pos same]
  · simp only [if_neg same]

theorem fail_progress (distinct : (steps.map WorkflowStep.name).Nodup) (now : Int)
    (error : String) (running : Is steps name .running) : Progress steps fun step =>
      if step.name = name then step.fail now error
      else if step.name ∈ skipped [name] steps then { step with status := .skipped } else step := by
  constructor
  · intro step
    split
    · rfl
    · split <;> rfl
  · intro step
    split
    · rfl
    · split <;> rfl
  · intro step member terminal
    split
    next same =>
      rw [WorkflowStep.isTerminal, running.status distinct member same] at terminal
      cases terminal
    next =>
      split
      next among =>
        obtain ⟨other, place, same, pending⟩ := skipped_step among
        rw [eq_of_name distinct place member same] at pending
        rw [WorkflowStep.isTerminal, pending] at terminal
        cases terminal
      next => rfl

theorem Sound.fail (sound : Sound decl steps) (distinct : (steps.map WorkflowStep.name).Nodup)
    (ordered : Ordered decl) (now : Int) (error : String) (running : Is steps name .running) :
    Sound decl (skipDependents [name] (editStep name (WorkflowStep.fail now error) steps)) := by
  rw [fail_eq_map distinct now error running]
  apply sound.map (fail_progress distinct now error running)
  · intro step member begun idle
    split at begun
    next same =>
      rw [running.status distinct member same] at idle
      exact absurd rfl idle
    next =>
      split at begun
      · cases begun
      · exact absurd begun idle
  · intro step member failed fresh other place needs
    -- only the step itself fails here
    have same : step.name = name := by
      by_contra different
      rw [if_neg different] at failed
      split at failed
      · cases failed
      · exact fresh failed
    rw [same] at needs
    have apart : other.name ≠ name := by
      intro alike
      rcases sound.waiting distinct running place needs with pending | skipped
      · rw [running.status distinct place alike] at pending
        cases pending
      · rw [running.status distinct place alike] at skipped
        cases skipped
    rw [if_neg apart]
    rcases sound.waiting distinct running place needs with pending | skipped
    · rw [if_pos (sound.reaches distinct running (ordered _ _ needs) place rfl pending)]
    · split
      · rfl
      · exact skipped
  · intro step member skipped fresh
    obtain ⟨holder, place, same, _⟩ := running
    refine ⟨holder, place, by rw [if_pos same]; rfl, ?_⟩
    rw [same]
    split at skipped
    next => cases skipped
    next different =>
      split at skipped
      next among =>
        have closed : step.name = name ∨ Needs decl step.name name := by
          refine skipped_closed (fun other => other = name ∨ Needs decl other name) ?_ ?_ among
          · intro other inside
            exact .inl (List.mem_singleton.mp inside)
          · intro other inside dep depends behind
            have first : DependsOn decl other.name dep := sound.declared ▸ dependsOn_of_mem inside depends
            rcases behind with here | further
            · exact .inr (.single (here ▸ first))
            · exact .inr (.head first further)
        exact closed.resolve_left different
      next => exact absurd skipped fresh

end Soundness

section Operations
variable {wf after : WorkflowRecord} {now : Int} {name error : String}

theorem nextPendingStep_spec {step : WorkflowStep} (next : wf.nextPendingStep = some step) :
    step ∈ wf.steps ∧ step.status = .pending ∧ ∀ dep ∈ step.dependsOn, ∃ other ∈ wf.steps,
      other.name = dep ∧ other.isDone := by
  have found := List.find?_some next
  simp only [decide_eq_true_eq, List.mem_map, List.mem_filter] at found
  refine ⟨List.mem_of_find?_eq_some next, found.1, ?_⟩
  intro dep inside
  obtain ⟨other, ⟨place, done⟩, same⟩ := found.2 dep inside
  exact ⟨other, place, same, done⟩

@[simp] theorem maybeClose_steps : (wf.maybeClose now).steps = wf.steps := by
  unfold WorkflowRecord.maybeClose
  split <;> rfl

theorem beginStep_steps (begun : wf.beginStep now name = .ok after) :
    after.steps = editStep name (.begin now) wf.steps := by
  obtain ⟨step, _, rest⟩ := except_bind_ok.mp begun
  split at rest
  · cases rest
  · cases rest
    rfl

theorem completeStep_steps (completed : wf.completeStep now name = .ok after) :
    after.steps = editStep name (.complete now) wf.steps := by
  obtain ⟨step, _, rest⟩ := except_bind_ok.mp completed
  cases rest
  exact maybeClose_steps

theorem failStep_steps (failed : wf.failStep now name error true = .ok after) :
    after.steps = skipDependents [name] (editStep name (.fail now error) wf.steps) := by
  obtain ⟨step, _, rest⟩ := except_bind_ok.mp failed
  cases rest
  rfl

theorem start_steps (started : wf.start now = .ok after) : after.steps = wf.steps := by
  unfold WorkflowRecord.start at started
  split at started
  · cases started
  · cases started
    rfl

theorem resume_steps (resumed : wf.resume now = .ok after) : after.steps = wf.steps.map .requeue := by
  unfold WorkflowRecord.resume at resumed
  split at resumed
  · cases resumed
  · split at resumed
    · cases resumed
    · cases resumed
      rfl

end Operations

section Runs
variable {decl : List (String × List String)} {state : Manager} {now : Int}

/-- A step was begun in a sound record in which all that it needs is completed. -/
def Begun.Behind (decl : List (String × List String)) (entry : Begun) : Prop :=
  Sound decl entry.found.steps ∧ ∀ dep, Needs decl entry.name dep → Is entry.found.steps dep .completed

/-- What `run` keeps while no other operation arrives. -/
structure Kept (decl : List (String × List String)) (state : Manager) : Prop where
  sound : Sound decl state.record.steps
  handling : ∀ name, state.handling = some name → Is state.record.steps name .running
  begun : ∀ entry ∈ state.begun, entry.Behind decl

/-- Failed steps stay so, and every step begun on the way was begun behind them. -/
structure Onward (state after : Manager) : Prop where
  failed : ∀ name, Is state.record.steps name .failed → Is after.record.steps name .failed
  begun : ∃ entries, after.begun = state.begun ++ entries ∧
    ∀ entry ∈ entries, ∀ name, Is state.record.steps name .failed → Is entry.found.steps name .failed

theorem Onward.refl (state : Manager) : Onward state state := ⟨fun _ => id, [], by simp, by simp⟩

theorem Onward.trans {first second third : Manager} (early : Onward first second)
    (late : Onward second third) :
    Onward first third := by
  obtain ⟨old, grown, behind⟩ := early.begun
  obtain ⟨new, grown_again, behind_again⟩ := late.begun
  refine ⟨fun name failed => late.failed name (early.failed name failed), old ++ new, ?_, ?_⟩
  · rw [grown_again, grown, List.append_assoc]
  · intro entry member name failed
    rcases List.mem_append.mp member with first | second
    · exact behind entry first name failed
    · exact behind_again entry second name (early.failed name failed)

theorem Onward.edit {edit : WorkflowStep → WorkflowStep}
    (progress : Progress state.record.steps edit) {after : Manager}
    (steps : after.record.steps = state.record.steps.map edit) (begun : after.begun = state.begun) :
    Onward state after := by
  refine ⟨?_, [], by simp [begun], by simp⟩
  intro name failed
  rw [steps]
  exact progress.is failed (.inr (.inl rfl))

theorem proceed_kept (state : Manager) (now : Int) (names : (decl.map Prod.fst).Nodup)
    (sound : Sound decl state.record.steps)
    (begun : ∀ entry ∈ state.begun, entry.Behind decl) :
    Kept decl (state.proceed now) ∧ Onward state (state.proceed now) := by
  have distinct := sound.distinct names
  have rests : Kept decl { state with handling := none } ∧ Onward state { state with handling := none } :=
    ⟨⟨sound, (fun _ handled => nomatch handled), begun⟩, ⟨fun _ => id, [], by simp, by simp⟩⟩
  unfold Manager.proceed
  split
  · exact rests
  next step next =>
    obtain ⟨member, pending, done⟩ := nextPendingStep_spec next
    split
    · exact rests
    next wf begins =>
      have steps := beginStep_steps begins
      have progress : Progress state.record.steps _ :=
        editStep_progress distinct ⟨step, member, rfl, pending⟩ (.inl rfl) (.begin now)
          (fun _ => rfl) fun _ => rfl
      refine ⟨⟨?_, ?_, ?_⟩, ⟨?_, _, rfl, ?_⟩⟩
      · rw [steps]
        exact sound.begin distinct now member pending done
      · intro name handled
        cases handled
        rw [steps, editStep_eq_map distinct]
        exact ⟨_, List.mem_map_of_mem member, by rw [if_pos rfl]; rfl, by rw [if_pos rfl]; rfl⟩
      · intro entry logged
        rcases List.mem_append.mp logged with old | new
        · exact begun entry old
        · rw [List.mem_singleton.mp new]
          exact ⟨sound, sound.ready distinct member pending done⟩
      · intro name failed
        rw [steps, editStep_eq_map distinct]
        exact progress.is failed (.inr (.inl rfl))
      · intro entry new name failed
        rw [List.mem_singleton.mp new]
        exact failed

theorem enter_kept (names : (decl.map Prod.fst).Nodup) (kept : Kept decl state) :
    Kept decl (state.enter now) ∧ Onward state (state.enter now) := by
  unfold Manager.enter
  split
  · exact ⟨kept, Onward.refl state⟩
  next wf entered =>
    have edited : ∃ edit, Progress state.record.steps edit ∧
        wf.steps = state.record.steps.map edit ∧ Sound decl wf.steps := by
      split at entered
      · refine ⟨.requeue, requeue_progress, resume_steps entered, ?_⟩
        rw [resume_steps entered]
        exact kept.sound.requeue
      · refine ⟨id, ⟨fun _ => rfl, fun _ => rfl, fun _ _ _ => rfl⟩, ?_, ?_⟩
        · rw [start_steps entered, List.map_id]
        · rw [start_steps entered]
          exact kept.sound
    obtain ⟨edit, progress, steps, sound⟩ := edited
    have opened : Onward state { state with record := wf } := Onward.edit progress steps rfl
    obtain ⟨after, onward⟩ := proceed_kept { state with record := wf } now names sound kept.begun
    exact ⟨after, opened.trans onward⟩

theorem handled_kept (names : (decl.map Prod.fst).Nodup) (ordered : Ordered decl)
    (kept : Kept decl state) {name : String}
    (handling : state.handling = some name) (outcome : Outcome) :
    Kept decl (state.handled now name outcome) ∧ Onward state (state.handled now name outcome) := by
  have distinct := kept.sound.distinct names
  have running := kept.handling name handling
  have idle (record : WorkflowRecord) (sound : Sound decl record.steps) :
      Kept decl { state with record, handling := none } :=
        ⟨sound, (fun _ handled => nomatch handled), kept.begun⟩
  have rests : Onward state { state with handling := none } := ⟨fun _ => id, [], by simp, by simp⟩
  have completes {wf : WorkflowRecord} (completed : state.record.completeStep now name = .ok wf) :
      Sound decl wf.steps ∧ Onward state { state with record := wf } := by
    have steps := completeStep_steps completed
    have progress : Progress state.record.steps _ :=
      editStep_progress distinct running (.inr rfl) (.complete now) (fun _ => rfl) fun _ => rfl
    refine ⟨?_, Onward.edit progress ?_ rfl⟩
    · rw [steps]
      exact kept.sound.complete distinct now running
    · rw [steps, editStep_eq_map distinct]
  cases outcome with
  | returned =>
    simp only [Manager.handled]
    cases completed : state.record.completeStep now name with
    | error _ => exact ⟨idle state.record kept.sound, rests⟩
    | ok wf =>
      obtain ⟨sound, onward⟩ := completes completed
      obtain ⟨after, next⟩ := proceed_kept { state with record := wf } now names sound kept.begun
      exact ⟨after, onward.trans next⟩
  | raised error =>
    simp only [Manager.handled]
    cases failed : state.record.failStep now name error true with
    | error _ => exact ⟨idle state.record kept.sound, rests⟩
    | ok wf =>
      have steps := failStep_steps failed
      refine ⟨idle wf ?_, Onward.edit (fail_progress distinct now error running) ?_ rfl⟩
      · rw [steps]
        exact kept.sound.fail distinct ordered now error running
      · rw [← fail_eq_map distinct now error running]
        exact steps
  | left completed =>
    cases completed with
    | true =>
      simp only [Manager.handled]
      cases completed : state.record.completeStep now name with
      | error _ => exact ⟨idle state.record kept.sound, rests⟩
      | ok wf =>
        obtain ⟨sound, onward⟩ := completes completed
        exact ⟨idle wf sound, onward.failed, onward.begun⟩
    | false => exact ⟨idle state.record kept.sound, rests⟩

/-- Only `run` is called. -/
def Unattended (action : Int × Action) : Prop := ∀ op, action.2 ≠ .call op

theorem act_kept (names : (decl.map Prod.fst).Nodup) (ordered : Ordered decl) (kept : Kept decl state)
    {action : Int × Action} (unattended : Unattended action) :
    Kept decl (state.act action) ∧ Onward state (state.act action) := by
  obtain ⟨now, action⟩ := action
  cases action with
  | call op => exact absurd rfl (unattended op)
  | run =>
    cases handling : state.handling with
    | none =>
      simp only [Manager.act, handling]
      exact enter_kept names kept
    | some name =>
      simp only [Manager.act, handling]
      exact ⟨kept, Onward.refl state⟩
  | handled outcome =>
    cases handling : state.handling with
    | none =>
      simp only [Manager.act, handling]
      exact ⟨kept, Onward.refl state⟩
    | some name =>
      simp only [Manager.act, handling]
      exact handled_kept names ordered kept handling outcome

theorem run_kept (names : (decl.map Prod.fst).Nodup) (ordered : Ordered decl) (kept : Kept decl state)
    {actions : List (Int × Action)} (unattended : ∀ action ∈ actions, Unattended action) :
    Kept decl (Machine.run Manager.act state actions) ∧
      Onward state (Machine.run Manager.act state actions) := by
  induction actions generalizing state with
  | nil => exact ⟨kept, Onward.refl state⟩
  | cons action actions ih =>
    obtain ⟨after, first⟩ := act_kept names ordered kept (unattended action List.mem_cons_self)
    obtain ⟨final, rest⟩ := ih after fun other member => unattended other (List.mem_cons_of_mem _ member)
    exact ⟨final, first.trans rest⟩

theorem created_kept {wf : WorkflowRecord} (fresh : Fresh wf) : Kept (declared wf.steps) (created wf) := by
  refine ⟨⟨rfl, ?_, ?_, ?_⟩, (fun _ handled => nomatch handled), fun _ member => nomatch member⟩
  · intro step member begun
    rw [fresh.steps step member] at begun
    cases begun
  · intro step member failed
    rw [fresh.steps step member] at failed
    cases failed
  · intro step member skipped
    rw [fresh.steps step member] at skipped
    cases skipped

/-- In every run of a workflow, steps are begun behind their transitive dependencies, and none of
the dependents of a failed step is begun any more. -/
def DependenciesRespected (wf : WorkflowRecord) : Prop :=
  ∀ before after : List (Int × Action), (∀ action ∈ before ++ after, Unattended action) →
    (∀ entry ∈ (Machine.run Manager.act (created wf) (before ++ after)).begun, ∀ dep,
      Needs (declared wf.steps) entry.name dep → Is entry.found.steps dep .completed) ∧
    ∀ name, Is (Machine.run Manager.act (created wf) before).record.steps name .failed →
      ∀ entries, (Machine.run Manager.act (created wf) (before ++ after)).begun =
          (Machine.run Manager.act (created wf) before).begun ++ entries →
        ∀ entry ∈ entries, ¬ Needs (declared wf.steps) entry.name name

theorem dependencies_respected {wf : WorkflowRecord} (fresh : Fresh wf)
    (distinct : (wf.steps.map WorkflowStep.name).Nodup)
    (ordered : Ordered (declared wf.steps)) : DependenciesRespected wf := by
  intro before after unattended
  have names : ((declared wf.steps).map Prod.fst).Nodup := by rwa [declared_names]
  obtain ⟨early, _⟩ := run_kept names ordered (created_kept fresh) fun action member =>
    unattended action (List.mem_append_left _ member)
  obtain ⟨late, onward⟩ := run_kept names ordered early fun action member =>
    unattended action (List.mem_append_right _ member)
  rw [Machine.run_append]
  refine ⟨fun entry member => (late.begun entry member).2, ?_⟩
  intro name failed entries split entry member needs
  obtain ⟨new, grown, behind⟩ := onward.begun
  have same : entries = new := List.append_cancel_left (split.symm.trans grown)
  subst same
  -- the record in which the step was found has the failed one both completed and failed
  have logged : entry ∈
      (Machine.run Manager.act (Machine.run Manager.act (created wf) before) after).begun := by
    rw [split]
    exact List.mem_append_right _ member
  obtain ⟨sound, completed⟩ := late.begun entry logged
  obtain ⟨step, place, named, stands⟩ := completed name needs
  rw [(behind entry member name failed).status (sound.distinct names) place named] at stands
  cases stands

/-! The steps a, b and c, where b depends on a and c depends on b. Declared the other way round,
c waits for b only, and b is skipped after the pass went by c. -/

def chain : WorkflowRecord :=
  { steps := [⟨"a", [], .pending, none, none, none⟩, ⟨"b", ["a"], .pending, none, none, none⟩,
  ⟨"c", ["b"], .pending, none, none, none⟩] }

def lateChain : WorkflowRecord := { steps := chain.steps.reverse }

theorem chain_ordered : Ordered (declared chain.steps) := by
  apply ordered_of_declared_after
  intro name dep depends
  obtain ⟨deps, member, inside⟩ := depends
  have links : name = "b" ∧ dep = "a" ∨ name = "c" ∧ dep = "b" := by
    simp only [chain, declared, List.map_cons, List.map_nil, List.mem_cons, Prod.mk.injEq,
      List.not_mem_nil, or_false]
      at member
    rcases member with ⟨_, rfl⟩ | ⟨rfl, rfl⟩ | ⟨rfl, rfl⟩
    · cases inside
    · exact .inl ⟨rfl, List.mem_singleton.mp inside⟩
    · exact .inr ⟨rfl, List.mem_singleton.mp inside⟩
  rcases links with ⟨rfl, rfl⟩ | ⟨rfl, rfl⟩ <;> decide

theorem dependencies_respected_chain : DependenciesRespected chain := by
  apply dependencies_respected
  · exact ⟨rfl, by decide⟩
  · decide
  · exact chain_ordered

def Acyclic (decl : List (String × List String)) : Prop := ∀ name, ¬ Needs decl name name

theorem acyclic_of_rank (rank : String → Nat) {decl : List (String × List String)}
    (lower : ∀ name dep, DependsOn decl name dep → rank dep < rank name) : Acyclic decl := by
  have below {name dep : String} (needs : Needs decl name dep) : rank dep < rank name := by
    induction needs with
    | single depends => exact lower _ _ depends
    | tail _ depends ih => exact Nat.lt_trans (lower _ _ depends) ih
  intro name needs
  exact Nat.lt_irrefl _ (below needs)

def failFirst : List (Int × Action) := [(0, .run), (1, .handled (.raised "no"))]

def runAgain : List (Int × Action) := [(2, .run)]

theorem late_dependent_begun : Fresh lateChain ∧ (lateChain.steps.map WorkflowStep.name).Nodup ∧
    Acyclic (declared lateChain.steps) ∧ ¬ DependenciesRespected lateChain := by
  refine ⟨⟨rfl, by decide⟩, by decide, ?_, ?_⟩
  · apply acyclic_of_rank fun name => if name = "a" then 0 else if name = "b" then 1 else 2
    intro name dep depends
    obtain ⟨deps, member, inside⟩ := depends
    simp only [lateChain, chain, declared, List.reverse_cons, List.reverse_nil, List.nil_append,
      List.cons_append,
      List.map_cons, List.map_nil, List.mem_cons, Prod.mk.injEq, List.not_mem_nil, or_false] at member
    rcases member with ⟨rfl, rfl⟩ | ⟨rfl, rfl⟩ | ⟨rfl, rfl⟩
    · rw [List.mem_singleton.mp inside]
      decide
    · rw [List.mem_singleton.mp inside]
      decide
    · cases inside
  · intro respected
    have unattended : ∀ action ∈ failFirst ++ runAgain, Unattended action := by
      intro action member op same
      simp only [failFirst, runAgain, List.cons_append, List.nil_append, List.mem_cons,
        List.not_mem_nil, or_false] at member
      rcases member with rfl | rfl | rfl <;> cases same
    obtain ⟨_, later⟩ := respected failFirst runAgain unattended
    have failed : Is (Machine.run Manager.act (created lateChain) failFirst).record.steps "a" .failed := by
      unfold Is
      decide
    have begun : ((Machine.run Manager.act (created lateChain) (failFirst ++ runAgain)).begun.drop 1).map Begun.name = ["c"] := by
      decide
    have split : (Machine.run Manager.act (created lateChain) (failFirst ++ runAgain)).begun =
        (Machine.run Manager.act (created lateChain) failFirst).begun ++
          (Machine.run Manager.act (created lateChain) (failFirst ++ runAgain)).begun.drop 1 := by decide
    obtain ⟨entry, member, named⟩ := List.mem_map.mp (begun ▸ List.mem_singleton_self "c")
    apply later "a" failed _ split entry member
    rw [named]
    exact .head (b := "b") ⟨["b"], by decide, by decide⟩ (.single ⟨["a"], by decide, by decide⟩)

end Runs

end TokenPak.Orchestration
