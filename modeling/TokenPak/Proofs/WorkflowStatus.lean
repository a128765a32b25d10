import TokenPak.Library.Transaction
import TokenPak.Orchestration.Workflow

/-! What a workflow's status says. Most operations write the record back without looking at its
status, so the status is only as good as the order in which they come. -/

namespace TokenPak.Orchestration
open Library

section Records
variable {wf after : WorkflowRecord} {now : Int} {name : String} {step : WorkflowStep}

/-- The steps but for the one that an operation on the name edits. -/
def otherSteps (name : String) (steps : List WorkflowStep) : List WorkflowStep :=
  steps.eraseP fun step => step.name = name

/-- A workflow that has completed has no failed step. -/
def Truthful (wf : WorkflowRecord) : Prop := wf.status = .completed → ∀ step ∈ wf.steps, step.status ≠ .failed

/-- A cancelled workflow has nothing left to run. -/
def Ended (wf : WorkflowRecord) : Prop := wf.status = .cancelled → ∀ step ∈ wf.steps, step.isTerminal

theorem mem_editStep {edit : WorkflowStep → WorkflowStep} {steps : List WorkflowStep}
    (member : step ∈ editStep name edit steps) :
    step ∈ otherSteps name steps ∨ ∃ old, getStep name steps = some old ∧ step = edit old := by
  induction steps with
  | nil => cases member
  | cons head steps ih =>
    rw [editStep] at member
    by_cases same : head.name = name
    · rw [if_pos same] at member
      rcases List.mem_cons.mp member with here | rest
      · exact .inr ⟨head, by simp [getStep, same], here⟩
      · exact .inl (by simpa [otherSteps, same] using rest)
    · rw [if_neg same] at member
      rcases List.mem_cons.mp member with here | rest
      · exact .inl (by simp [otherSteps, same, here])
      · rcases ih rest with other | ⟨old, found, edited⟩
        · exact .inl (by simpa [otherSteps, same] using .inr other)
        · exact .inr ⟨old, by simpa [getStep, same] using found, edited⟩

theorem mem_of_mem_otherSteps {steps : List WorkflowStep} (member : step ∈ otherSteps name steps) :
    step ∈ steps :=
  List.mem_of_mem_eraseP member

theorem otherSteps_subset_editStep (edit : WorkflowStep → WorkflowStep) (steps : List WorkflowStep) :
    otherSteps name steps ⊆ editStep name edit steps := by
  induction steps with
  | nil => exact List.nil_subset _
  | cons head steps ih =>
    rw [editStep]
    by_cases same : head.name = name
    · simp [otherSteps, same]
    · have tail : otherSteps name (head :: steps) = head :: otherSteps name steps := by
        simp [otherSteps, same]
      rw [if_neg same, tail]
      exact List.cons_subset_cons _ ih

theorem requireStep_ok (required : wf.requireStep name = .ok step) : getStep name wf.steps = some step := by
  unfold WorkflowRecord.requireStep at required
  split at required
  next found =>
    cases required
    exact found
  next => cases required

theorem start_ok (started : wf.start now = .ok after) : wf.status ≠ .cancelled ∧ after.status = .running := by
  unfold WorkflowRecord.start at started
  split at started
  · cases started
  next startable =>
    cases started
    refine ⟨?_, rfl⟩
    intro cancelled
    exact startable ⟨by simp [cancelled], by simp [cancelled]⟩

theorem resume_ok (resumed : wf.resume now = .ok after) :
    wf.status ≠ .cancelled ∧ after.status = .running := by
  unfold WorkflowRecord.resume at resumed
  split at resumed
  · cases resumed
  · split at resumed
    · cases resumed
    next standing =>
      cases resumed
      exact ⟨standing, rfl⟩

theorem beginStep_ok (begun : wf.beginStep now name = .ok after) : ∃ step, getStep name wf.steps = some step ∧
    step.status = .pending ∧ after = { wf with steps := editStep name (.begin now) wf.steps } := by
  obtain ⟨step, required, rest⟩ := except_bind_ok.mp begun
  split at rest
  · cases rest
  next pending =>
    cases rest
    exact ⟨step, requireStep_ok required, Decidable.not_not.mp pending, rfl⟩

theorem completeStep_ok (completed : wf.completeStep now name = .ok after) : (getStep name wf.steps).isSome ∧
    after = { wf with steps := editStep name (.complete now) wf.steps }.maybeClose now := by
  obtain ⟨step, required, rest⟩ := except_bind_ok.mp completed
  cases rest
  exact ⟨Option.isSome_of_eq_some (requireStep_ok required), rfl⟩

theorem skipStep_ok (skipped : wf.skipStep now name = .ok after) : (getStep name wf.steps).isSome ∧
    after = { wf with steps := editStep name (.skip now) wf.steps }.maybeClose now := by
  obtain ⟨step, required, rest⟩ := except_bind_ok.mp skipped
  cases rest
  exact ⟨Option.isSome_of_eq_some (requireStep_ok required), rfl⟩

theorem failStep_ok {error : String} {skips : Bool} (failed : wf.failStep now name error skips = .ok after) :
    (getStep name wf.steps).isSome ∧ after.status = .failed := by
  obtain ⟨step, required, rest⟩ := except_bind_ok.mp failed
  cases rest
  exact ⟨Option.isSome_of_eq_some (requireStep_ok required), rfl⟩

structure Trusted (wf : WorkflowRecord) : Prop where
  truthful : Truthful wf
  ended : Ended wf

theorem trusted_of_status (unfinished : wf.status ≠ .completed)
    (uncancelled : wf.status ≠ .cancelled) : Trusted wf :=
  ⟨fun completed => absurd completed unfinished, fun cancelled => absurd cancelled uncancelled⟩

/-- The workflow is not cancelled, and should this close it, then without a failed step. -/
def ClosesCleanly (name : String) (wf : WorkflowRecord) : Prop :=
  (getStep name wf.steps).isSome → wf.status ≠ .cancelled ∧
    ((∀ step ∈ otherSteps name wf.steps, step.isTerminal) → ∀ step ∈ otherSteps name wf.steps,
      step.status ≠ .failed)

theorem Trusted.begin (trusted : Trusted wf) (begun : wf.beginStep now name = .ok after) :
    wf.status ≠ .cancelled ∧ Trusted after := by
  obtain ⟨step, found, pending, rfl⟩ := beginStep_ok begun
  have uncancelled : wf.status ≠ .cancelled := by
    intro cancelled
    have terminal := trusted.ended cancelled step (List.mem_of_find?_eq_some found)
    simp [WorkflowStep.isTerminal, pending] at terminal
  refine ⟨uncancelled, ?_, fun cancelled => absurd cancelled uncancelled⟩
  intro completed other member
  rcases mem_editStep member with rest | ⟨old, _, rfl⟩
  · exact trusted.truthful completed other (mem_of_mem_otherSteps rest)
  · simp [WorkflowStep.begin]

theorem Trusted.close (trusted : Trusted wf) (cleanly : ClosesCleanly name wf)
    (found : (getStep name wf.steps).isSome)
    {edit : WorkflowStep → WorkflowStep} (done : ∀ step, (edit step).status ≠ .failed) :
    Trusted ({ wf with steps := editStep name edit wf.steps }.maybeClose now) := by
  obtain ⟨uncancelled, clean⟩ := cleanly found
  have sound (others : ∀ step ∈ otherSteps name wf.steps, step.status ≠ .failed) :
      ∀ step ∈ editStep name edit wf.steps, step.status ≠ .failed := by
    intro step member
    rcases mem_editStep member with rest | ⟨old, _, rfl⟩
    · exact others step rest
    · exact done old
  unfold WorkflowRecord.maybeClose
  split
  next all =>
    have terminal : ∀ step ∈ otherSteps name wf.steps, step.isTerminal = true := by
      intro step member
      exact List.all_eq_true.mp all step (otherSteps_subset_editStep edit wf.steps member)
    exact ⟨fun _ => sound (clean terminal), fun cancelled => nomatch cancelled⟩
  next =>
    refine ⟨?_, fun cancelled => absurd cancelled uncancelled⟩
    intro completed
    exact sound fun step member => trusted.truthful completed step (mem_of_mem_otherSteps member)

theorem abandon_terminal (step : WorkflowStep) : step.abandon.isTerminal := by
  unfold WorkflowStep.abandon
  cases status : step.status <;> simp [WorkflowStep.isTerminal, status]

theorem cancel_trusted : Trusted (wf.cancel now) := by
  refine ⟨(fun completed => nomatch completed), ?_⟩
  intro _ step member
  obtain ⟨old, _, rfl⟩ := List.mem_map.mp member
  exact abandon_terminal old

end Records

section Calls
variable {wf after : WorkflowRecord} {now : Int} {name : String} {op : Operation}

/-- An operation comes when the status allows for it. -/
def Operation.Orderly (wf : WorkflowRecord) : Operation → Prop
  | .completeStep name | .skipStep name => ClosesCleanly name wf
  | .failStep name _ _ => (getStep name wf.steps).isSome → wf.status ≠ .cancelled
  | .pause => wf.status ≠ .cancelled
  | .start | .beginStep _ | .cancel | .resume => True

theorem Trusted.edit (trusted : Trusted wf) (orderly : op.Orderly wf)
    (edited : op.edit now wf = .ok after) : Trusted after := by
  cases op with
  | start =>
    have status := (start_ok edited).2
    exact trusted_of_status (by simp [status]) (by simp [status])
  | beginStep name => exact (trusted.begin edited).2
  | completeStep name =>
    obtain ⟨found, rfl⟩ := completeStep_ok edited
    exact trusted.close orderly found (fun step => by simp [WorkflowStep.complete])
  | failStep name error skips =>
    have status := (failStep_ok edited).2
    exact trusted_of_status (by simp [status]) (by simp [status])
  | skipStep name =>
    obtain ⟨found, rfl⟩ := skipStep_ok edited
    exact trusted.close orderly found (fun step => by simp [WorkflowStep.skip])
  | cancel =>
    cases edited
    exact cancel_trusted
  | pause =>
    cases edited
    exact trusted_of_status nofun nofun
  | resume =>
    have status := (resume_ok edited).2
    exact trusted_of_status (by simp [status]) (by simp [status])

theorem Trusted.still (trusted : Trusted wf) (orderly : op.Orderly wf) (cancelled : wf.status = .cancelled)
    (edited : op.edit now wf = .ok after) : op = .cancel := by
  cases op with
  | start => exact absurd cancelled (start_ok edited).1
  | beginStep name => exact absurd cancelled (trusted.begin edited).1
  | completeStep name => exact absurd cancelled (orderly (completeStep_ok edited).1).1
  | failStep name error skips => exact absurd cancelled (orderly (failStep_ok edited).1)
  | skipStep name => exact absurd cancelled (orderly (skipStep_ok edited).1).1
  | cancel => rfl
  | pause => exact absurd cancelled orderly
  | resume => exact absurd cancelled (resume_ok edited).1

end Calls

section Histories
variable {state : Manager} {now : Int} {name : String}

/-- No step can be begun once the step of that name is completed. -/
def NothingReady (name : String) (wf : WorkflowRecord) : Prop :=
  ∀ step ∈ otherSteps name wf.steps, step.status = .pending →
    ∃ dep ∈ step.dependsOn, dep ≠ name ∧ ∀ other ∈ otherSteps name wf.steps, other.name = dep → ¬ other.isDone

/-- Operations come when the status allows for it, a handler's end as well, and `run` does not go
on while the workflow is paused. -/
def Orderly (state : Manager) (action : Int × Action) : Prop :=
  match action.2, state.handling with
  | .call op, _ => op.Orderly state.record
  | .handled .returned, some name =>
    ClosesCleanly name state.record ∧ (state.record.status = .paused → NothingReady name state.record)
  | .handled (.raised _), some name =>
      (getStep name state.record.steps).isSome → state.record.status ≠ .cancelled
  | .handled (.left true), some name => ClosesCleanly name state.record
  | .handled (.left false), some _ | .handled _, none | .run, _ => True

structure Faithful (state : Manager) : Prop where
  trusted : Trusted state.record
  unpaused : ∀ entry ∈ state.begun, entry.byRun → entry.found.status ≠ .paused

theorem Faithful.idle (faithful : Faithful state) : Faithful { state with handling := none } :=
  ⟨faithful.trusted, faithful.unpaused⟩

/-- Once cancelled, a workflow stays so and begins no step. -/
def Settles (state after : Manager) : Prop :=
  state.record.status = .cancelled → after.record.status = .cancelled ∧ after.begun = state.begun

theorem Settles.trans {first second third : Manager} (early : Settles first second)
    (late : Settles second third) :
    Settles first third := by
  intro cancelled
  obtain ⟨middle, same⟩ := early cancelled
  obtain ⟨final, still⟩ := late middle
  exact ⟨final, still.trans same⟩

theorem nextPendingStep_ready {wf : WorkflowRecord} {step : WorkflowStep}
    (next : wf.nextPendingStep = some step) :
    step ∈ wf.steps ∧ step.status = .pending ∧ ∀ dep ∈ step.dependsOn, ∃ other ∈ wf.steps,
      other.isDone ∧ other.name = dep := by
  have found := List.find?_some next
  simp only [decide_eq_true_eq, List.mem_map, List.mem_filter, and_assoc] at found
  exact ⟨List.mem_of_find?_eq_some next, found⟩

theorem nothing_next {wf : WorkflowRecord} (ready : NothingReady name wf) :
    { wf with steps := editStep name (.complete now) wf.steps }.nextPendingStep = none := by
  cases next : { wf with steps := editStep name (.complete now) wf.steps }.nextPendingStep with
  | none => rfl
  | some step =>
    obtain ⟨member, pending, done⟩ := nextPendingStep_ready next
    rcases mem_editStep member with rest | ⟨old, _, rfl⟩
    · obtain ⟨dep, inside, different, undone⟩ := ready step rest pending
      obtain ⟨other, place, finished, named⟩ := done dep inside
      rcases mem_editStep place with among | ⟨old, found, rfl⟩
      · exact absurd finished (undone other among named)
      · have same : old.name = name := by simpa using List.find?_some found
        exact absurd (named.symm.trans same) different
    · cases pending

theorem maybeClose_next {wf : WorkflowRecord} (waits : wf.status = .paused → NothingReady name wf) :
    let completed := { wf with steps := editStep name (.complete now) wf.steps }.maybeClose now
    completed.status = .paused → completed.nextPendingStep = none := by
  unfold WorkflowRecord.maybeClose
  split
  · exact fun paused => nomatch paused
  · exact fun paused => nothing_next (waits paused)

theorem proceed_faithful (faithful : Faithful state)
    (unpaused : state.record.status = .paused → state.record.nextPendingStep = none) :
    Faithful (state.proceed now) ∧ Settles state (state.proceed now) := by
  unfold Manager.proceed
  split
  · exact ⟨faithful.idle, fun cancelled => ⟨cancelled, rfl⟩⟩
  next step next =>
    split
    · exact ⟨faithful.idle, fun cancelled => ⟨cancelled, rfl⟩⟩
    next wf begins =>
      obtain ⟨uncancelled, trusted⟩ := faithful.trusted.begin begins
      refine ⟨⟨trusted, ?_⟩, fun cancelled => absurd cancelled uncancelled⟩
      intro entry member byRun
      rcases List.mem_append.mp member with old | new
      · exact faithful.unpaused entry old byRun
      · rw [List.mem_singleton.mp new]
        intro paused
        rw [unpaused paused] at next
        cases next

theorem enter_faithful (faithful : Faithful state) :
    Faithful (state.enter now) ∧ Settles state (state.enter now) := by
  unfold Manager.enter
  split
  · exact ⟨faithful, fun cancelled => ⟨cancelled, rfl⟩⟩
  next wf entered =>
    have running : state.record.status ≠ .cancelled ∧ wf.status = .running := by
      split at entered
      · exact resume_ok entered
      · exact start_ok entered
    obtain ⟨uncancelled, running⟩ := running
    have opened : Faithful { state with record := wf } :=
      ⟨trusted_of_status (by simp [running]) (by simp [running]), faithful.unpaused⟩
    have unpaused : wf.status = .paused → wf.nextPendingStep = none := by simp [running]
    exact ⟨(proceed_faithful opened unpaused).1, fun cancelled => absurd cancelled uncancelled⟩

theorem call_faithful (faithful : Faithful state) {op : Operation} (orderly : op.Orderly state.record) :
    Faithful (state.call now op) ∧ Settles state (state.call now op) := by
  unfold Manager.call
  split
  next => exact ⟨faithful, fun cancelled => ⟨cancelled, rfl⟩⟩
  next wf edited =>
    refine ⟨⟨faithful.trusted.edit orderly edited, ?_⟩, ?_⟩
    · intro entry member byRun
      rcases List.mem_append.mp member with old | new
      · exact faithful.unpaused entry old byRun
      · cases op with
        | beginStep name =>
          rw [List.mem_singleton.mp new] at byRun
          cases byRun
        | start | completeStep | failStep | skipStep | cancel | pause | resume => cases new
    · intro cancelled
      have only := faithful.trusted.still orderly cancelled edited
      subst only
      cases edited
      exact ⟨rfl, List.append_nil _⟩

theorem complete_faithful (now : Int) (faithful : Faithful state)
    (cleanly : ClosesCleanly name state.record) :
    Faithful (state.saved (state.record.completeStep now name)) ∧
      Settles state (state.saved (state.record.completeStep now name)) := by
  cases completed : state.record.completeStep now name with
  | error _ => exact ⟨faithful, fun cancelled => ⟨cancelled, rfl⟩⟩
  | ok wf =>
    obtain ⟨found, rfl⟩ := completeStep_ok completed
    refine ⟨⟨faithful.trusted.close cleanly found fun step =>
      by simp [WorkflowStep.complete], faithful.unpaused⟩, ?_⟩
    intro cancelled
    exact absurd cancelled (cleanly found).1

theorem handled_faithful (faithful : Faithful state) (handling : state.handling = some name)
    {outcome : Outcome}
    (orderly : Orderly state (now, .handled outcome)) :
    Faithful (state.handled now name outcome) ∧ Settles state (state.handled now name outcome) := by
  unfold Orderly at orderly
  simp only [handling] at orderly
  cases outcome with
  | returned =>
    obtain ⟨cleanly, waits⟩ := orderly
    have completes := complete_faithful now faithful cleanly
    simp only [Manager.handled]
    cases completed : state.record.completeStep now name with
    | error _ => exact ⟨faithful.idle, fun cancelled => ⟨cancelled, rfl⟩⟩
    | ok wf =>
      rw [completed] at completes
      obtain ⟨done, settles⟩ := completes
      obtain ⟨_, rfl⟩ := completeStep_ok completed
      obtain ⟨after, onward⟩ := proceed_faithful done (maybeClose_next waits)
      exact ⟨after, settles.trans onward⟩
  | raised error =>
    simp only [Manager.handled]
    cases failed : state.record.failStep now name error true with
    | error _ => exact ⟨faithful.idle, fun cancelled => ⟨cancelled, rfl⟩⟩
    | ok wf =>
      obtain ⟨found, status⟩ := failStep_ok failed
      refine ⟨⟨trusted_of_status (by simp [Manager.saved, status]) (by simp [Manager.saved, status]), faithful.unpaused⟩, ?_⟩
      intro cancelled
      exact absurd cancelled (orderly found)
  | left completed =>
    cases completed with
    | true =>
      obtain ⟨completed, settles⟩ := complete_faithful now faithful orderly
      exact ⟨completed.idle, settles⟩
    | false => exact ⟨faithful.idle, fun cancelled => ⟨cancelled, rfl⟩⟩

theorem act_faithful (faithful : Faithful state) {action : Int × Action} (orderly : Orderly state action) :
    Faithful (state.act action) ∧ Settles state (state.act action) := by
  obtain ⟨now, action⟩ := action
  unfold Manager.act
  cases action with
  | call op => exact call_faithful faithful orderly
  | run =>
    cases state.handling with
    | none => exact enter_faithful faithful
    | some name => exact ⟨faithful, fun cancelled => ⟨cancelled, rfl⟩⟩
  | handled outcome =>
    cases handling : state.handling with
    | none => exact ⟨faithful, fun cancelled => ⟨cancelled, rfl⟩⟩
    | some name => exact handled_faithful faithful handling orderly

theorem run_faithful (faithful : Faithful state) {actions : List (Int × Action)}
    (orderly : Machine.Each Manager.act Orderly state actions) :
    Faithful (Machine.run Manager.act state actions) ∧
      Settles state (Machine.run Manager.act state actions) := by
  induction actions generalizing state with
  | nil => exact ⟨faithful, fun cancelled => ⟨cancelled, rfl⟩⟩
  | cons action actions ih =>
    obtain ⟨after, first⟩ := act_faithful faithful orderly.1
    obtain ⟨final, rest⟩ := ih after orderly.2
    exact ⟨final, first.trans rest⟩

/-- After such a history no completed workflow has a failed step, one that was cancelled on the
way is cancelled and has begun no step since, and `run` has begun no step of a paused one. -/
structure StatusHolds (wf : WorkflowRecord) (before after : List (Int × Action)) : Prop where
  truthful : Truthful (Machine.run Manager.act (created wf) (before ++ after)).record
  final : Settles (Machine.run Manager.act (created wf) before)
    (Machine.run Manager.act (created wf) (before ++ after))
  unpaused : ∀ entry ∈ (Machine.run Manager.act (created wf) (before ++ after)).begun, entry.byRun →
    entry.found.status ≠ .paused

theorem status_holds {wf : WorkflowRecord} (fresh : wf.status = .pending) {before after : List (Int × Action)}
    (orderly : Machine.Each Manager.act Orderly (created wf) (before ++ after)) :
    StatusHolds wf before after := by
  have start : Faithful (created wf) :=
    ⟨trusted_of_status (by simp [created, fresh]) (by simp [created, fresh]), fun _ member => nomatch member⟩
  obtain ⟨early, late⟩ := Machine.each_append.mp orderly
  obtain ⟨middle, _⟩ := run_faithful start early
  obtain ⟨final, settles⟩ := run_faithful middle late
  rw [← Machine.run_append] at final settles
  exact ⟨final.trusted.truthful, settles, final.unpaused⟩

/-! Two steps that do not wait for one another. -/

def pair : WorkflowRecord :=
  { steps := [⟨"a", [], .pending, none, none, none⟩, ⟨"b", [], .pending, none, none, none⟩] }

theorem status_holds_paused : StatusHolds pair [(0, .run), (1, .call .pause)]
    [(2, .handled (.raised "no"))] := by
  apply status_holds rfl
  refine ⟨trivial, ?_, ?_, trivial⟩
  · intro cancelled
    exact absurd cancelled (by decide)
  · intro _
    decide

/-- The second step completes the workflow whose first step has failed. -/
def completedWithFailure : List (Int × Action) :=
  [(0, .run), (1, .handled (.raised "no")), (2, .run), (3, .handled .returned)]

/-- The workflow is cancelled while it waits for a handler, and completed when that returns. -/
def cancelledMidway : List (Int × Action) := [(0, .run), (1, .call .cancel)]

def pausedMidway : List (Int × Action) := [(0, .run), (1, .call .pause)]

theorem status_broken : pair.status = .pending ∧ ¬ StatusHolds pair [] completedWithFailure ∧
    ¬ StatusHolds pair cancelledMidway [(2, Action.handled .returned)] ∧
      ¬ StatusHolds pair pausedMidway [(2, Action.handled .returned)] := by
  refine ⟨rfl, ?_, ?_, ?_⟩
  · intro holds
    have failed : ∃ step ∈
        (Machine.run Manager.act (created pair) completedWithFailure).record.steps,
        step.status = .failed := by
      decide
    obtain ⟨step, member, status⟩ := failed
    exact holds.truthful (by decide) step member status
  · intro holds
    have settled := (holds.final (by decide)).1
    exact absurd settled (by decide)
  · intro holds
    have begun : ∃ entry ∈ (Machine.run Manager.act (created pair) (pausedMidway ++
      [(2, Action.handled .returned)])).begun,
        entry.byRun = true ∧ entry.found.status = .paused := by decide
    obtain ⟨entry, member, byRun, paused⟩ := begun
    exact holds.unpaused entry member byRun paused

end Histories

end TokenPak.Orchestration
