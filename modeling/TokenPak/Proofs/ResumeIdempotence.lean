import TokenPak.Proofs.DriftDecision
import TokenPak.Proofs.StationOrder

/-! A resume that crashes among its own writes, before the work of the next station.
The mark on the interrupted station is written first and is all that the next resume
looks at, so a station that was to be passed over or decided about is rerun. -/

namespace TokenPak.Dispatch
open Library

/-- What a resume is told to do, and about which station. -/
structure Directive where
  action : ResumeAction
  station : Option String
  attempt : Option Nat
  decision : Option Decision
  promotes : List String
  start : Int
  deriving DecidableEq

def Ledger.directive (route : Route) (workspace : Workspace) (ledger : Ledger) : Directive where
  action := (ledger.reconciled workspace).action
  station := ledger.recorded
  attempt := (ledger.reconciled workspace).rerunAttemptNumber
  decision := (ledger.reconciled workspace).decision
  promotes := (ledger.reconciled workspace).promoteEffectIds
  start := resumeStartIndex route ledger.stationRuns (ledger.reconciled workspace)

def Directive.again (route : Route) (last : StationRun) : Directive :=
  ⟨.rerunStation, some last.stationId, some (last.attemptNumber + 1), none, [],
    stationIndex route last.stationId⟩

def Ledger.Resuming (workspace : Workspace) (ledger : Ledger) (op : Op) (reply : Reply op)
    (after : Ledger) : Prop :=
  ledger.AnswersIn workspace op reply after ∧ ∀ id station, op ≠ .work id station

/-- The mark, the promotions and the record of the next station are all there. -/
structure Ledger.Followed (before : Ledger) (outcome : ResumeOutcome) (after : Ledger) : Prop where
  marked : ∀ last status, before.stationRuns.getLast? = some last →
    outcome.stationStatusTransition = some status →
    { last with status := status } ∈ after.stationRuns
  promoted : ∀ effect ∈ before.effects, effect.id ∈ outcome.promoteEffectIds →
    { effect with status := .applied, finalized := true } ∈ after.effects
  begun : after.Extends before.ids

/-- An interrupted station that was not to be rerun is rerun. -/
def Ledger.RestartsStation (route : Route) (workspace : Workspace) (before after : Ledger) : Prop :=
  ∃ last, before.stationRuns.getLast? = some last ∧ last.status = .running ∧
    (before.directive route workspace).action ≠ .rerunStation ∧
      after.directive route workspace = .again route last

def Ledger.Resumable (route : Route) (workspace : Workspace) (before after : Ledger) : Prop :=
  after.directive route workspace = before.directive route workspace ∨
    before.Followed (before.reconciled workspace) after ∨ before.RestartsStation route workspace after

section directives
variable {route : Route} {workspace : Workspace} {ledger after : Ledger} {last : StationRun}

theorem directive_again (found : ledger.stationRuns.getLast? = some last)
    (uncompleted : last.status ≠ .completed)
    (stopped : last.status ≠ .running) : ledger.directive route workspace = .again route last := by
  unfold Ledger.directive Ledger.recorded Ledger.reconciled reconcileRun resumeStartIndex
  simp [found, Directive.again]

theorem directive_of_rows (same : after.stationRuns = ledger.stationRuns)
    (stopped : ∀ last, ledger.stationRuns.getLast? = some last → last.status ≠ .running) :
    after.directive route workspace = ledger.directive route workspace := by
  have reconciled : after.reconciled workspace = ledger.reconciled workspace := by
    unfold Ledger.reconciled reconcileRun
    rw [same]
    split
    next => rfl
    next last found =>
      split
      next => rfl
      next running => exact absurd running (stopped last found)
      next => rfl
  unfold Ledger.directive Ledger.recorded
  rw [reconciled, same]

structure ResumeOutcome.Reruns (outcome : ResumeOutcome) (last : StationRun) : Prop where
  attempt : outcome.rerunAttemptNumber = some (last.attemptNumber + 1)
  decision : outcome.decision = none
  promotes : outcome.promoteEffectIds = []

theorem reconcilePlanned_reruns {planned : List Effect}
    (rerun : (reconcilePlanned workspace last planned).action = .rerunStation) :
    (reconcilePlanned workspace last planned).Reruns last := by
  unfold reconcilePlanned at rerun ⊢
  dsimp only at rerun ⊢
  split at rerun
  · cases rerun
  · next first =>
    rw [if_neg first]
    split at rerun
    · next second =>
      rw [if_pos second]
      exact ⟨rfl, rfl, rfl⟩
    · cases rerun

theorem reconcileRun_reruns {stationRuns : List StationRun} {effects : List Effect}
    (found : stationRuns.getLast? = some last) (running : last.status = .running)
    (rerun : (reconcileRun stationRuns effects workspace).action = .rerunStation) :
    (reconcileRun stationRuns effects workspace).Reruns last := by
  unfold reconcileRun at rerun ⊢
  simp only [found, running] at rerun ⊢
  split at rerun
  next nothing =>
    rw [if_pos nothing]
    exact ⟨rfl, rfl, rfl⟩
  next something =>
    rw [if_neg something]
    split at rerun
    next planned =>
      rw [if_pos planned]
      exact reconcilePlanned_reruns rerun
    next unplanned =>
      unfold reconcileApplied at rerun
      dsimp only at rerun
      split at rerun <;> cases rerun

theorem directive_rerun (found : ledger.stationRuns.getLast? = some last) (running : last.status = .running)
    (rerun : (ledger.reconciled workspace).action = .rerunStation) :
    ledger.directive route workspace = .again route last := by
  have reruns : (ledger.reconciled workspace).Reruns last := reconcileRun_reruns found running rerun
  unfold Ledger.directive Ledger.recorded resumeStartIndex Directive.again
  rw [rerun, reruns.attempt, reruns.decision, reruns.promotes, found]
  rfl

/-- The station runs after the mark is written. -/
def transitioned (stationRuns : List StationRun) (outcome : ResumeOutcome) : List StationRun :=
  match stationRuns.getLast?, outcome.stationStatusTransition with
  | some last, some status => Ledger.replaceStationRun { last with status := status } stationRuns
  | _, _ => stationRuns

/-- With the mark and nothing more, the directive is the same or a rerun. -/
theorem resumable_of_transitioned (rows : after.stationRuns =
    transitioned ledger.stationRuns (ledger.reconciled workspace)) :
    ledger.Resumable route workspace after := by
  unfold transitioned at rows
  split at rows
  next last status found moves =>
    obtain ⟨unfinished, stopped, open_⟩ := reconcileRun_transition moves
    have marked : after.stationRuns.getLast? = some { last with status := status } := by
      rw [rows, Ledger.replaceStationRun, List.getLast?_concat]
    have again : after.directive route workspace = .again route { last with status := status } :=
      directive_again marked unfinished stopped
    change _ = Directive.again route last at again
    by_cases running : last.status = .running
    · by_cases rerun : (ledger.reconciled workspace).action = .rerunStation
      · exact .inl (again.trans (directive_rerun found running rerun).symm)
      · exact .inr (.inr ⟨last, found, running, rerun, again⟩)
    · exact .inl (again.trans (directive_again found (open_ last found) running).symm)
  next unmoved =>
    refine .inl (directive_of_rows rows fun last found running => ?_)
    have open_ : last.status ≠ .completed := by rw [running]; decide
    rcases reconcileRun_marks found open_ ledger.lastEffects workspace with moves | moves
    · exact unmoved last _ found moves
    · exact unmoved last _ found moves

end directives

/-! The walk that follows. -/

section walking
variable {workspace : Workspace} {before ledger after : Ledger} {rows : List StationRun}
  {promotes : List String}

theorem Ledger.Answers.rows_kept {op : Op} {reply : Reply op} (answered : ledger.Answers op reply after)
    (rowless : op.Rowless) : after.stationRuns = ledger.stationRuns := by
  by_cases quiet : op.Quiet
  · exact (answered.quiet quiet).2
  · cases op with
    | writeRun run =>
      cases answered
      rfl
    | writeStationRun row => exact rowless.elim
    | _ => exact absurd trivial quiet

def Op.Effectless : Op → Prop
  | .work .. => False
  | .markEffectApplied _ => False
  | _ => True

theorem Ledger.Answers.effects_kept {op : Op} {reply : Reply op} (answered : ledger.Answers op reply after)
    (effectless : op.Effectless) : after.effects = ledger.effects := by
  cases op with
  | work => exact effectless.elim
  | markEffectApplied => exact effectless.elim
  | readRun | readStationRuns | readEffects | uuid => exact answered.2 ▸ rfl
  | writeRun | writeStationRun | writeDecision | writeLateResult | writeReceipt | tryClaimRunLease | releaseRunLease
  | hashWorkspace | isCancelled | review =>
    cases answered
    rfl

/-- These effects of the ledger before are applied. -/
def Ledger.Promoted (before : Ledger) (promotes : List String) (ledger : Ledger) : Prop :=
  ∀ effect ∈ before.effects, effect.id ∈ promotes →
    { effect with status := .applied, finalized := true } ∈ ledger.effects

theorem Ledger.Promoted.frame (promoted : before.Promoted promotes ledger)
    (same : after.effects = ledger.effects) :
    before.Promoted promotes after := fun effect member named => same ▸ promoted effect member named

theorem Ledger.Promoted.mark {id : String} (promoted : before.Promoted promotes ledger)
    (answered : ledger.Answers (.markEffectApplied id) () after) : before.Promoted promotes after := by
  obtain rfl : after = _ := answered
  intro effect member named
  refine List.mem_map.mpr ⟨_, promoted effect member named, ?_⟩
  split <;> rfl

/-- The rows that the mark left are still there, and whatever is added has a name of
its own. -/
structure Call.Adds (before : Ledger) (rows : List StationRun) (promotes : List String)
    (call : Call) (ledger : Ledger) :
    Prop where
  planned : call.outcome ≠ none
  unmarked : call.outcome.bind ResumeOutcome.stationStatusTransition = none
  kept : ∀ row ∈ rows, row ∈ ledger.stationRuns
  grown : ledger.stationRuns = rows ∨ ∃ id ∈ ledger.ids, id ∉ rows.map StationRun.id
  promoted : before.Promoted promotes ledger
  place : ∀ place, call.walk.current = some place → place.id ∉ rows.map StationRun.id

theorem Call.Adds.step {route : Route} (call : Call) (ledger : Ledger) (op : Op) (reply : Reply op)
    (after : Ledger)
    (adds : call.Adds before rows promotes ledger) (allowed : call.Allows op)
    (answered : ledger.Resuming workspace op reply after) :
    (call.next route op reply).Adds before rows promotes after := by
  obtain ⟨⟨answered, -⟩, unworked⟩ := answered
  obtain ⟨planned, unmarked, kept, grown, promoted, place⟩ := adds
  have framed (rowless : op.Rowless) (effects : before.Promoted promotes after)
      (outcome : (call.next route op reply).outcome = call.outcome)
      (placed : ∀ place, (call.next route op reply).walk.current = some place →
        place.id ∉ rows.map StationRun.id) :
      (call.next route op reply).Adds before rows promotes after := by
    have same := answered.rows_kept rowless
    refine ⟨outcome ▸ planned, outcome ▸ unmarked, same ▸ kept, ?_, effects, placed⟩
    rwa [Ledger.ids, same]
  cases op with
  | work id station => exact absurd rfl (unworked id station)
  | hashWorkspace => exact absurd allowed.1 planned
  | writeStationRun row =>
    obtain rfl : after = _ := answered
    dsimp only [Call.Allows] at allowed
    split at allowed
    next own current =>
      obtain ⟨named, -⟩ := allowed
      have fresh : row.id ∉ rows.map StationRun.id := named ▸ place own current
      refine ⟨planned, unmarked, fun other member => ?_,
        .inr ⟨row.id, Ledger.ids_replace.mpr (.inr rfl), fresh⟩, promoted, place⟩
      have apart : other.id ≠ row.id := fun same => fresh (same ▸ List.mem_map_of_mem member)
      exact List.mem_append_left _ (List.mem_filter.mpr ⟨kept other member, decide_eq_true apart⟩)
    next =>
      obtain ⟨last, status, -, moves, -⟩ := allowed
      rw [unmarked] at moves
      cases moves
  | uuid =>
    refine framed trivial (promoted.frame (answered.effects_kept trivial)) rfl fun opened current => ?_
    have fresh : reply ∉ rows.map StationRun.id := by
      intro member
      obtain ⟨row, present, named⟩ := List.mem_map.mp member
      exact answered.1 row (kept row present) named
    dsimp only [Call.next, Walk.opens] at current
    split at current
    · exact place opened current
    · cases current
      exact fresh
  | markEffectApplied id => exact framed trivial (promoted.mark answered) rfl place
  | readRun =>
    obtain ⟨walk, outcome⟩ := Call.next_still reply id
    exact framed trivial (promoted.frame (answered.effects_kept trivial)) outcome (walk ▸ place)
  | tryClaimRunLease =>
    obtain ⟨walk, outcome⟩ := Call.next_still reply id
    exact framed trivial (promoted.frame (answered.effects_kept trivial)) outcome (walk ▸ place)
  | releaseRunLease | writeRun | readStationRuns | readEffects | writeDecision | writeLateResult | writeReceipt | isCancelled
  | review =>
    exact framed trivial (promoted.frame (answered.effects_kept trivial)) rfl place

end walking

section resuming
variable {workspace : Workspace} {before ledger : Ledger} {job : Job} {run : Run}

def promoteAll (ids : List String) (effects : List Effect) : List Effect :=
  effects.map fun effect =>
    if effect.id ∈ ids then { effect with status := .applied, finalized := true } else effect

theorem promoteAll_snoc (ids : List String) (id : String) (effects : List Effect) :
    (promoteAll ids effects).map (fun effect =>
      if effect.id = id then { effect with status := .applied, finalized := true } else effect) =
      promoteAll (ids ++ [id]) effects := by
  rw [promoteAll, promoteAll, List.map_map]
  refine List.map_congr_left fun effect _ => ?_
  obtain rfl | new := eq_or_ne effect.id id
  · by_cases old : effect.id ∈ ids <;> simp [old]
  · by_cases old : effect.id ∈ ids <;> simp [old, new]

theorem promoteEffects_resumable (ids : List String) {done : List String}
    {crash : Ledger → Prop} (safe : ∀ after : Ledger, after.stationRuns = ledger.stationRuns → crash after)
    (promoted : ledger.effects = promoteAll done before.effects) :
    (promoteEffects ids).Sustains (Ledger.Resuming workspace) crash
      (fun after _ => after.stationRuns = ledger.stationRuns ∧
        after.effects = promoteAll (done ++ ids) before.effects)
      ledger := by
  induction ids generalizing ledger done with
  | nil => exact .pure (safe ledger rfl) ⟨rfl, by rw [promoted, List.append_nil]⟩
  | cons id ids ih =>
    refine .ask (safe ledger rfl) fun _ after answered => ?_
    obtain rfl : after = _ := answered.1.1
    have marked : ({ ledger with effects := ledger.effects.map fun effect =>
        if effect.id = id then { effect with status := .applied, finalized := true } else effect } : Ledger).effects =
        promoteAll (done ++ [id]) before.effects := by
      rw [← promoteAll_snoc, ← promoted]
    refine Program.Sustains.mono (ih safe marked) ?_
    rintro after - - ⟨rows, effects⟩
    exact ⟨rows, by rw [effects, List.append_assoc, List.singleton_append]⟩

theorem transitioned_ids {outcome : ResumeOutcome} {id : String} (member : id ∈ ledger.ids) :
    id ∈ (transitioned ledger.stationRuns outcome).map StationRun.id := by
  unfold transitioned
  split
  next last status _ _ =>
    let marked := Ledger.replaceStationRun { last with status := status } ledger.stationRuns
    change id ∈ ({ ledger with stationRuns := marked } : Ledger).ids
    exact Ledger.ids_replace.mpr (.inl member)
  next => exact member

theorem Call.Adds.resumable {call : Call} {outcome : ResumeOutcome}
    (same : outcome = before.reconciled workspace)
    (adds : call.Adds before (transitioned before.stationRuns outcome) outcome.promoteEffectIds ledger) :
    before.Resumable job.route workspace ledger := by
  subst same
  rcases adds.grown with rows | ⟨id, member, new⟩
  · exact resumable_of_transitioned rows
  · refine .inr (.inl ⟨fun last status found moves => adds.kept _ ?_, adds.promoted, id, member, ?_⟩)
    · rw [transitioned, found, moves]
      exact List.mem_append_right _ (List.mem_singleton_self _)
    · exact fun old => new (transitioned_ids old)

theorem walkFrom_resumable {progress : Progress} {start : Int} {attempt : Nat}
    (going : ¬ progress.run.status.Terminal)
    (rows : ledger.stationRuns = transitioned before.stationRuns (before.reconciled workspace))
    (promoted : before.Promoted (before.reconciled workspace).promoteEffectIds ledger) :
    (walkFrom job progress start attempt).Sustains (Ledger.Resuming workspace)
    (before.Resumable job.route workspace)
      (fun _ _ => True) ledger := by
  let call : Call := ⟨true, some (some progress.run), [], [], some (reconcileRun [] [] workspace),
    .from (stationsFrom job.route start) attempt⟩
  have conforms : (walkFrom job progress start attempt).Conforms (callProtocol job.route)
      (fun _ _ => True) call :=
    walkFrom_conforms ⟨rfl, ⟨progress.run, rfl, going⟩, going⟩ rfl
  have adds : call.Adds before (transitioned before.stationRuns (before.reconciled workspace))
      (before.reconciled workspace).promoteEffectIds ledger :=
    ⟨Option.some_ne_none _, rfl, fun row member => rows ▸ member, .inl rows, promoted,
      fun _ current => nomatch current⟩
  refine ((conforms.sustains (Call.Adds before _ _) adds Call.Adds.step).mono fun _ _ _ _ =>
    trivial).weaken ?_
  rintro after ⟨later, adds⟩
  exact adds.resumable rfl

theorem finalizeRun_resumable {status : RunStatus} {decision : Option Decision}
    (rows : ledger.stationRuns = transitioned before.stationRuns (before.reconciled workspace)) :
    (finalizeRun run status decision).Sustains (Ledger.Resuming workspace)
    (before.Resumable job.route workspace)
      (fun _ _ => True) ledger := by
  refine .ask (resumable_of_transitioned rows) fun persisted after read => ?_
  obtain ⟨-, rfl⟩ := read.1.1
  split
  · exact .pure (resumable_of_transitioned rows) trivial
  · refine .ask (resumable_of_transitioned rows) fun _ after written => ?_
    obtain rfl : after = _ := written.1.1
    exact .pure (resumable_of_transitioned rows) trivial

theorem followOutcome_resumable (going : ¬ run.status.Terminal)
    (rows : ledger.stationRuns = transitioned before.stationRuns (before.reconciled workspace))
    (effects : ledger.effects = before.effects) :
    (followOutcome job run before.stationRuns (before.reconciled workspace)).Sustains (Ledger.Resuming workspace)
      (before.Resumable job.route workspace) (fun _ _ => True) ledger := by
  unfold followOutcome
  split
  · refine .ask (resumable_of_transitioned rows) fun _ after written => ?_
    obtain rfl : after = _ := written.1.1
    refine .bind (Program.Sustains.mono (finalizeRun_resumable ?_) fun _ _ here _ => .pure here trivial)
    exact rows
  · have start : ledger.effects = promoteAll [] before.effects := by simp [promoteAll, effects]
    have safe (after : Ledger) (same : after.stationRuns = ledger.stationRuns) :
        before.Resumable job.route workspace after := resumable_of_transitioned (same.trans rows)
    refine .bind ((promoteEffects_resumable _ safe start).mono ?_)
    rintro after - - ⟨same, promoted⟩
    refine walkFrom_resumable going (same.trans rows) fun effect member named => ?_
    rw [promoted]
    exact List.mem_map.mpr ⟨effect, member, if_pos named⟩

theorem transitionStation_resumable :
    (transitionStation before.stationRuns (before.reconciled workspace)).Sustains (Ledger.Resuming workspace)
      (before.Resumable job.route workspace)
      (fun after _ => after.stationRuns = transitioned before.stationRuns (before.reconciled workspace) ∧
        after.effects = before.effects) before := by
  have here : before.Resumable job.route workspace before := .inl rfl
  unfold transitionStation
  split
  next last status found moves =>
    have marked : transitioned before.stationRuns (before.reconciled workspace) =
        Ledger.replaceStationRun { last with status := status } before.stationRuns := by
      rw [transitioned, found, moves]
    refine ⟨here, fun _ after written => ?_⟩
    obtain rfl : after = _ := written.1.1
    exact .pure (resumable_of_transitioned marked.symm) ⟨marked.symm, rfl⟩
  next unmoved =>
    have unmarked : transitioned before.stationRuns (before.reconciled workspace) = before.stationRuns := by
      unfold transitioned
      split
      next last status found moves => exact absurd moves (unmoved last status found)
      next => rfl
    exact .pure here ⟨unmarked.symm, rfl⟩

theorem resumeRun_resumable (going : ¬ run.status.Terminal) :
    (resumeRun job run).Sustains (Ledger.Resuming workspace) (before.Resumable job.route workspace)
    (fun _ _ => True)
      before := by
  refine .ask (.inl rfl) fun stationRuns after read => ?_
  obtain ⟨rfl, rfl⟩ : stationRuns = before.stationRuns ∧ before = after := ⟨read.1.1.1, read.1.1.2.symm⟩
  have reads : (readEffectsForLast before.stationRuns).Sustains Ledger.Answers (before.Resumable job.route workspace)
      (fun after effects => after = before ∧ effects = before.lastEffects) before :=
        readEffectsForLast_reads (.inl rfl)
  have resuming : ∀ world op reply after, Ledger.Resuming workspace world op reply after →
      Ledger.Answers world op reply after := fun _ _ _ _ answered => answered.1.1
  refine .bind ((reads.restrict resuming).mono ?_)
  rintro after effects - ⟨rfl, rfl⟩
  refine .ask (.inl rfl) fun seen later hashed => ?_
  obtain ⟨rfl, rfl⟩ : after = later ∧ seen = workspace := ⟨hashed.1.1.symm, hashed.1.2⟩
  refine .bind (transitionStation_resumable.mono ?_)
  rintro marked - - ⟨rows, effects⟩
  exact followOutcome_resumable going rows effects

end resuming

/-- Wherever a resume is stopped before the work of the next station, the next resume
over the same files is told the same, or everything the first was told is done, or a
station that was running is rerun from a clean attempt. -/
theorem crashed_resume_resumable (job : Job) (workspace : Workspace) (before after : Ledger)
    (stops : Program.Stops (Ledger.Resuming workspace) (FulfillmentLine.resume job) before after) :
    before.Resumable job.route workspace after := by
  have here : before.Resumable job.route workspace before := .inl rfl
  have release {ledger : Ledger} {value : Except LineError FulfillmentResult}
      (safe : before.Resumable job.route workspace ledger) : (do
        ask .releaseRunLease
        return value : Line _).Sustains (Ledger.Resuming workspace) (before.Resumable job.route workspace)
        (fun _ _ => True) ledger := by
    refine .ask safe fun _ after released => ?_
    obtain rfl : after = ledger := released.1.1
    exact .pure safe trivial
  have sustained : (FulfillmentLine.resume job).Sustains (Ledger.Resuming workspace)
      (before.Resumable job.route workspace) (fun _ _ => True) before := by
    unfold FulfillmentLine.resume
    refine .ask here fun first after read => ?_
    obtain ⟨-, rfl⟩ := read.1.1
    split
    · exact .pure here trivial
    · split
      · exact .pure here trivial
      · refine .ask here fun claimed after asked => ?_
        obtain rfl : after = _ := asked.1.1
        split
        · exact .pure here trivial
        · refine .ask here fun again after read => ?_
          obtain ⟨-, rfl⟩ := read.1.1
          split
          · exact release here
          next run =>
            split
            · exact release here
            next going => exact .bind ((resumeRun_resumable going).mono fun _ _ safe _ => release safe)
  exact sustained.stopped stops

/-! A station that stops when its patch is in the file. -/

/-- The answers of a scene up to the work of the next station. -/
def Scene.resumed (scene : Scene) (id : String) (ledger : Ledger) : (op : Op) → Option (Reply op × Ledger)
  | .work .. => none
  | op => scene.answer id ledger op

theorem Scene.resumed_sound (scene : Scene) (id : String) (ledger : Ledger) (op : Op)
    (reply : Reply op) (after : Ledger)
    (answered : scene.resumed id ledger op = some (reply, after)) :
    ledger.Resuming scene.workspace op reply after := by
  cases op with
  | work => cases answered
  | hashWorkspace =>
    cases answered
    exact ⟨⟨rfl, rfl⟩, fun _ _ same => nomatch same⟩
  | readRun | writeRun | readStationRuns | writeStationRun | readEffects | markEffectApplied | writeDecision
  | writeLateResult | writeReceipt | tryClaimRunLease | releaseRunLease | uuid | isCancelled | review =>
    exact ⟨⟨scene.answer_sound id _ _ _ _ answered, trivial⟩, fun _ _ same => nomatch same⟩

def patchedScene : Scene := { driftScene with workspace := fun _ => some "sha256:bb" }

def patchedJob : Job := ⟨"run_1", reviewedRoute, sampleManifest⟩

def patchedLedger : Ledger := { interruptedLedger with effects := driftScene.effects }

def markedLedger : Ledger := { patchedLedger with
  stationRuns := [⟨"stationrun_1", "build", .needsRecovery, none, "station_result.v1", 1⟩] }

theorem patched_marked :
    Program.Stops (Ledger.Resuming patchedScene.workspace)
    (FulfillmentLine.resume patchedJob) patchedLedger markedLedger :=
  Program.drive_stops patchedScene.resumed_sound
    (show Program.drive patchedScene.resumed (.replicate 7 "unused") (FulfillmentLine.resume patchedJob) patchedLedger =
      some markedLedger by decide +kernel)

theorem crashed_resume_resumable_marked :
    Program.Stops (Ledger.Resuming patchedScene.workspace)
    (FulfillmentLine.resume patchedJob) patchedLedger markedLedger ∧
      patchedLedger.Resumable reviewedRoute patchedScene.workspace markedLedger :=
  ⟨patched_marked, crashed_resume_resumable patchedJob patchedScene.workspace patchedLedger markedLedger patched_marked⟩

/-- The station was to be passed over, and is rerun. -/
theorem passed_station_rerun :
    ¬∀ (job : Job) (workspace : Workspace) (before after : Ledger),
      (∃ run, before.run = some run ∧ ¬ run.status.Terminal) →
      Program.Stops (Ledger.Resuming workspace) (FulfillmentLine.resume job) before after →
      after.directive job.route workspace = before.directive job.route workspace ∨
        before.Followed (before.reconciled workspace) after := by
  intro idempotent
  have going : ∃ run, patchedLedger.run = some run ∧ ¬ run.status.Terminal := ⟨_, rfl, by decide⟩
  rcases idempotent patchedJob patchedScene.workspace patchedLedger markedLedger going patched_marked with same | followed
  · have passes : (patchedLedger.directive reviewedRoute patchedScene.workspace).action =
        .continueNextStation := by
      decide +kernel
    have reruns : (markedLedger.directive reviewedRoute patchedScene.workspace).action = .rerunStation := by
      decide +kernel
    have both : ResumeAction.continueNextStation = .rerunStation :=
      passes.symm.trans ((congrArg Directive.action same).symm.trans reruns)
    cases both
  · obtain ⟨id, member, new⟩ := followed.begun
    exact new member

end TokenPak.Dispatch
