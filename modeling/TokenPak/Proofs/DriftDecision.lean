import TokenPak.Proofs.DeliveryReview

/-! A resume that asks for a decision marks the interrupted station. The mark is all
that a later resume looks at: it reruns the station, whether or not anyone has
decided. -/

namespace TokenPak.Dispatch
open Library

namespace Ledger

def ids (ledger : Ledger) : List String := ledger.stationRuns.map StationRun.id

/-- A station run was recorded that is not among these. -/
def Extends (known : List String) (ledger : Ledger) : Prop := ∃ id ∈ ledger.ids, id ∉ known

/-- The station stands last, and neither completed nor running. -/
structure Awaits (known : List String) (station : StationRun) (ledger : Ledger) : Prop where
  kept : ∀ id ∈ known, id ∈ ledger.ids
  waiting : ∃ status, status ≠ .completed ∧ status ≠ .running ∧
    ledger.stationRuns.getLast? = some { station with status := status }

/-- The station waits, until another station run is recorded. -/
def Undecided (known : List String) (station : StationRun) (ledger : Ledger) : Prop :=
  ledger.Extends known ∨ ledger.Awaits known station

variable {ledger : Ledger}

theorem ids_replace {row : StationRun} {id : String} :
    id ∈ { ledger with stationRuns := replaceStationRun row ledger.stationRuns }.ids ↔
      id ∈ ledger.ids ∨ id = row.id := by
  by_cases same : id = row.id
  · simp [ids, replaceStationRun, same]
  · simp only [ids, replaceStationRun, List.map_append, List.mem_append, List.mem_map, List.mem_filter]
    simp only [List.mem_singleton, exists_eq_left, Ne.symm same, same, or_false, decide_eq_true_eq]
    exact exists_congr fun other => and_congr_left fun named => and_iff_left (named ▸ same)

theorem Answers.ids {after : Ledger} {op : Op} {reply : Reply op}
    (answered : ledger.Answers op reply after) {id : String} (member : id ∈ ledger.ids) :
    id ∈ after.ids := by
  by_cases quiet : op.Quiet
  · rwa [Ledger.ids, (answered.quiet quiet).2]
  · cases op with
    | writeRun run =>
      cases answered
      exact member
    | writeStationRun row =>
      cases answered
      exact ids_replace.mpr (.inl member)
    | _ => exact absurd trivial quiet

theorem Extends.step {known : List String} (ledger : Ledger) (op : Op) (reply : Reply op) (after : Ledger)
    (answered : ledger.Answers op reply after) (extends_ : ledger.Extends known) : after.Extends known := by
  obtain ⟨id, member, unknown⟩ := extends_
  exact ⟨id, answered.ids member, unknown⟩

theorem Awaits.rerun {known : List String} {station : StationRun}
    (awaits : ledger.Awaits known station) (route : Route) (workspace : Workspace) :
    (ledger.reconciled workspace).action = .rerunStation ∧
      (ledger.reconciled workspace).rerunAttemptNumber = some (station.attemptNumber + 1) ∧
      resumeStartIndex route ledger.stationRuns (ledger.reconciled workspace) =
          stationIndex route station.stationId := by
  obtain ⟨status, uncompleted, stopped, last⟩ := awaits.waiting
  obtain ⟨action, attempt, _⟩ := reconcileRun_rerun last uncompleted stopped ledger.lastEffects workspace
  refine ⟨action, attempt, ?_⟩
  unfold resumeStartIndex Ledger.reconciled
  simp [last, action]

end Ledger

/-! Every part of a call leaves the station waiting or records another. -/

section parts
variable {α : Type} {known : List String} {station : StationRun} {ledger : Ledger} {run : Run}

open Ledger

variable {post : Ledger → α → Prop} {progress : Progress} {attempt : Nat} {job : Job}

/-- Once another station run is recorded the rest of a call does not matter. -/
theorem Ledger.Extends.rest {program : Line α} (extends_ : ledger.Extends known)
    (implies : ∀ after value, after.Extends known → post after value) :
    program.Sustains Answers (Undecided known station) post ledger :=
  ((Program.Sustains.always Extends.step extends_).mono fun after value extends_ _ =>
    implies after value extends_).weaken
    fun _ => .inl

theorem Ledger.Undecided.frame {after : Ledger} (undecided : ledger.Undecided known station)
    (same : after.stationRuns = ledger.stationRuns) : after.Undecided known station := by
  have ids : after.ids = ledger.ids := by rw [Ledger.ids, same, Ledger.ids]
  refine undecided.imp (fun ⟨id, member, unknown⟩ => ⟨id, ids ▸ member, unknown⟩) fun awaits => ?_
  exact ⟨fun id member => ids ▸ awaits.kept id member, same ▸ awaits.waiting⟩

/-- An operation that writes no station run. -/
def Op.Rowless : Op → Prop
  | .writeStationRun _ => False
  | _ => True

theorem Ledger.Undecided.ask {op : Op} {next : Reply op → Line α}
    (undecided : ledger.Undecided known station) (rowless : op.Rowless)
    (rest : ∀ reply after, ledger.Answers op reply after → after.Undecided known station →
      (next reply).Sustains Answers (Undecided known station) post after) :
    (Dispatch.ask op >>= next).Sustains Answers (Undecided known station) post ledger := by
  refine .ask undecided fun reply after answered => rest reply after answered (undecided.frame ?_)
  by_cases quiet : op.Quiet
  · exact (answered.quiet quiet).2
  · cases op with
    | writeRun run =>
      cases answered
      rfl
    | writeStationRun row => exact rowless.elim
    | _ => exact absurd trivial quiet

theorem Ledger.Undecided.recorded {row : StationRun} (undecided : ledger.Undecided known station)
    (fresh : row.id ∉ ledger.ids) :
    ({ ledger with stationRuns := replaceStationRun row ledger.stationRuns } : Ledger).Extends known := by
  obtain ⟨id, member, unknown⟩ | awaits := undecided
  · exact ⟨id, ids_replace.mpr (.inl member), unknown⟩
  · exact ⟨row.id, ids_replace.mpr (.inr rfl), fun old => fresh (awaits.kept row.id old)⟩

theorem Ledger.Undecided.askRow {row : StationRun} {next : Unit → Line α}
    (undecided : ledger.Undecided known station) (fresh : row.id ∉ ledger.ids)
    (implies : ∀ after value, after.Extends known → post after value) :
    (Dispatch.ask (.writeStationRun row) >>=
      next).Sustains Answers (Undecided known station) post ledger := by
  refine .ask undecided fun _ after written => ?_
  obtain rfl : after = _ := written
  exact (undecided.recorded fresh).rest implies

theorem Ledger.Undecided.done {value : α} (undecided : ledger.Undecided known station) :
    (pure value : Line α).Sustains Answers (Undecided known station) (fun _ _ => True) ledger :=
      .pure undecided trivial

theorem fresh_of_drawn {id : String} {after : Ledger} (drawn : ledger.Answers .uuid id after) :
    id ∉ after.ids := by
  obtain ⟨fresh, rfl⟩ := drawn
  intro member
  obtain ⟨row, found, named⟩ := List.mem_map.mp member
  exact fresh row found named

theorem appendOnce_undecided {linked : List String} {link : List String → Run} {id : String}
    (undecided : ledger.Undecided known station) :
    (appendOnce linked link run id).Sustains Answers (Undecided known station) (fun _ _ => True) ledger := by
  unfold appendOnce
  split
  · exact undecided.done
  · exact undecided.ask trivial fun _ _ _ undecided => undecided.done

theorem finalizeRun_undecided {status : RunStatus} {decision : Option Decision}
    (undecided : ledger.Undecided known station) :
    (finalizeRun run status decision).Sustains Answers (Undecided known station)
    (fun _ _ => True) ledger := by
  refine undecided.ask trivial fun persisted _ _ undecided => ?_
  split
  · exact undecided.done
  · exact undecided.ask trivial fun _ _ _ undecided => undecided.done

theorem finalizeWithDelivery_undecided {package : DeliveryPackage}
    {review : Option ReviewerStationResult} (undecided : ledger.Undecided known station) :
    (finalizeWithDelivery progress package review).Sustains Answers (Undecided known station)
    (fun _ _ => True) ledger := by
  have receipt {after : Ledger} {run : Run} {status : RunStatus} (undecided : after.Undecided known station) :
      (buildAndWriteReceipt run status).Sustains Answers (Undecided known station) (fun _ _ => True) after :=
    undecided.ask trivial fun _ _ _ undecided => undecided.ask trivial fun _ _ _ undecided => undecided.done
  have decision : (recordDecision progress.run package.decision).Sustains Answers (Undecided known station)
      (fun _ _ => True) ledger := by
    unfold recordDecision
    split
    · exact undecided.ask trivial fun _ _ _ undecided => appendOnce_undecided undecided
    · exact undecided.done
  refine .bind (decision.mono fun _ _ undecided _ => ?_)
  refine .bind ((finalizeRun_undecided undecided).mono fun after run undecided _ => ?_)
  have issued : (issueReceipt run (lineOutcome package.status)).Sustains Answers (Undecided known station)
      (fun _ _ => True) after := by
    unfold issueReceipt
    split
    · exact receipt undecided
    · exact receipt undecided
    · exact undecided.done
  exact .bind (issued.mono fun _ _ undecided _ => undecided.done)

theorem stationRun_extends {place : RouteStation} (undecided : ledger.Undecided known station) :
    (stationRun place attempt).Sustains Answers (Undecided known station)
    (fun after _ => after.Extends known) ledger := by
  refine undecided.ask trivial fun id after drawn undecided => ?_
  have fresh : id ∉ after.ids := fresh_of_drawn drawn
  refine undecided.ask trivial fun cancelled later asked undecided => ?_
  obtain rfl : later = after := asked
  dsimp only
  split
  · exact undecided.askRow fresh fun _ _ extends_ => extends_
  · exact undecided.askRow fresh fun _ _ extends_ => extends_

theorem runReviewerStation_extends {place : RouteStation} (undecided : ledger.Undecided known station) :
    (runReviewerStation run place).Sustains Answers (Undecided known station)
    (fun after _ => after.Extends known) ledger :=
  undecided.ask trivial fun _ _ _ undecided => undecided.ask trivial fun _ _ drawn undecided =>
    undecided.askRow (fresh_of_drawn drawn) fun _ _ extends_ => extends_

theorem markRemainingCancelled_undecided (stations : List RouteStation)
    (undecided : ledger.Undecided known station) :
    (markRemainingCancelled run stations).Sustains Answers (Undecided known station)
    (fun _ _ => True) ledger := by
  cases stations with
  | nil => exact undecided.done
  | cons place stations =>
    exact undecided.ask trivial fun _ _ drawn undecided =>
      undecided.askRow (fresh_of_drawn drawn) fun _ _ _ => trivial

theorem walkStations_undecided (plan : List Visit) (undecided : ledger.Undecided known station) :
    (walkStations job progress attempt plan).Sustains Answers (Undecided known station)
    (fun _ _ => True) ledger := by
  cases plan with
  | nil => exact finalizeWithDelivery_undecided undecided
  | cons visit later =>
    refine undecided.ask trivial fun cancelled _ _ undecided => ?_
    split
    · refine .bind ((markRemainingCancelled_undecided _ undecided).mono fun _ _ undecided _ => ?_)
      exact .bind ((finalizeRun_undecided undecided).mono fun _ _ undecided _ => undecided.done)
    · split
      · refine .bind ((runReviewerStation_extends undecided).mono fun _ _ _ extends_ => ?_)
        exact extends_.rest fun _ _ _ => trivial
      · refine .bind (.bind ((stationRun_extends undecided).mono fun _ _ _ extends_ => ?_))
        exact extends_.rest fun _ _ extends_ => extends_.rest fun _ _ _ => trivial

theorem walkFrom_undecided {start : Int} (undecided : ledger.Undecided known station) :
    (walkFrom job progress start attempt).Sustains Answers (Undecided known station)
    (fun _ _ => True) ledger := by
  unfold walkFrom
  split
  · exact undecided.done
  next plan _ =>
    exact .bind ((walkStations_undecided plan undecided).mono fun _ _ undecided _ => undecided.done)

theorem promoteEffects_undecided (effects : List String) (undecided : ledger.Undecided known station) :
    (promoteEffects effects).Sustains Answers (Undecided known station) (fun _ _ => True) ledger := by
  induction effects generalizing ledger with
  | nil => exact undecided.done
  | cons id effects ih => exact undecided.ask trivial fun _ _ _ undecided => ih undecided

theorem transitionStation_undecided {effects : List Effect} {workspace : Workspace}
    (undecided : ledger.Undecided known station) :
    (transitionStation ledger.stationRuns (reconcileRun ledger.stationRuns effects workspace)).Sustains Answers
      (Undecided known station) (fun _ _ => True) ledger := by
  unfold transitionStation
  split
  next last status found moves =>
    refine ⟨undecided, fun _ after written => .pure ?_ trivial⟩
    obtain rfl : after = _ := written
    obtain ⟨id, member, unknown⟩ | awaits := undecided
    · exact .inl ⟨id, ids_replace.mpr (.inl member), unknown⟩
    · refine .inr ⟨fun id old => ids_replace.mpr (.inl (awaits.kept id old)), ?_⟩
      obtain ⟨before, uncompleted, stopped, waiting⟩ := awaits.waiting
      obtain rfl : last = { station with status := before } := Option.some.inj (found.symm.trans waiting)
      obtain ⟨_, _, marked⟩ := reconcileRun_rerun waiting uncompleted stopped effects workspace
      obtain rfl : status = .failedInterrupted := Option.some.inj (moves.symm.trans marked)
      exact ⟨.failedInterrupted, nofun, nofun, by simp [replaceStationRun]⟩
  next => exact undecided.done

theorem followOutcome_undecided {stationRuns : List StationRun} {outcome : ResumeOutcome}
    (undecided : ledger.Undecided known station) :
    (followOutcome job run stationRuns outcome).Sustains Answers (Undecided known station)
    (fun _ _ => True) ledger := by
  unfold followOutcome
  split
  · refine undecided.ask trivial fun _ _ _ undecided => ?_
    exact .bind ((finalizeRun_undecided undecided).mono fun _ _ undecided _ => undecided.done)
  · exact .bind ((promoteEffects_undecided _ undecided).mono fun _ _ undecided _ =>
      walkFrom_undecided undecided)

theorem resumeRun_undecided (undecided : ledger.Undecided known station) :
    (resumeRun job run).Sustains Answers (Undecided known station) (fun _ _ => True) ledger := by
  refine .ask undecided fun stationRuns after read => ?_
  obtain ⟨rfl, rfl⟩ : stationRuns = ledger.stationRuns ∧ ledger = after := ⟨read.1, read.2.symm⟩
  refine .bind ((readEffectsForLast_reads undecided).mono ?_)
  rintro after effects - ⟨rfl, rfl⟩
  refine .ask undecided fun workspace after read => ?_
  obtain rfl : _ = after := read.symm
  exact .bind ((transitionStation_undecided undecided).mono fun _ _ undecided _ =>
    followOutcome_undecided undecided)

theorem Ledger.Undecided.release {value : α} (undecided : ledger.Undecided known station) :
    (do
      Dispatch.ask .releaseRunLease
      return value : Line α).Sustains Answers (Undecided known station) (fun _ _ => True) ledger :=
  undecided.ask trivial fun _ _ _ undecided => undecided.done

theorem request_undecided {runId : String} {route : Route} (request : Request)
    (undecided : ledger.Undecided known station) :
    (request.program runId route).Sustains Answers (Undecided known station) (fun _ _ => True) ledger := by
  cases request with
  | run manifest =>
    refine undecided.ask trivial fun claimed _ _ undecided => ?_
    split
    · exact undecided.done
    · refine undecided.ask trivial fun existing _ _ undecided => ?_
      split
      · exact undecided.release
      · refine undecided.ask trivial fun _ _ _ undecided => ?_
        exact .bind ((walkFrom_undecided undecided).mono fun _ _ undecided _ => undecided.release)
  | resume manifest =>
    refine undecided.ask trivial fun first _ _ undecided => ?_
    split
    · exact undecided.done
    · split
      · exact undecided.done
      · refine undecided.ask trivial fun claimed _ _ undecided => ?_
        split
        · exact undecided.done
        · refine undecided.ask trivial fun again _ _ undecided => ?_
          split
          · exact undecided.release
          · split
            · exact undecided.release
            · exact .bind ((resumeRun_undecided undecided).mono fun _ _ undecided _ => undecided.release)

/-- The station waits until another station run is recorded, whatever calls are made. -/
theorem Ledger.Undecided.since {runId : String} {route : Route} {later : Ledger}
    (undecided : ledger.Undecided known station)
    (since : Since runId route ledger later) : later.Undecided known station := by
  induction since with
  | now => exact undecided
  | call _ stops ih => exact (request_undecided _ ih).stopped stops

end parts

/-! The resume that asks. -/

section asking
variable {ledger : Ledger} {job : Job}

/-- What a call that returns a decision about an interrupted station has done. -/
structure Halted (before : Ledger) (decision : Decision) (stationRunId : String) (after : Ledger) : Prop where
  interrupted : ∃ station, before.stationRuns.getLast? = some station ∧ station.id = stationRunId ∧
    station.status = .running ∧
    after.stationRuns = Ledger.replaceStationRun { station with status := .needsRecovery } before.stationRuns
  recorded : decision ∈ after.decisions

/-- The line asks for no decision about an interrupted station. -/
def FulfillmentResult.Unasked (line : FulfillmentResult) : Prop :=
  ∀ decision, line.decision = some decision → decision.interrupted = none

theorem judge_bind {α β : Type} {first : Line α} {next : α → Line β} {judged : β → Prop}
    (rest : ∀ value after, (next value).Sustains Ledger.Answers (fun _ => True) (fun _ => judged) after) :
    (first >>= next).Sustains Ledger.Answers (fun _ => True) (fun _ => judged) ledger :=
  .bind ((Program.Sustains.always (fun _ _ _ _ _ _ => trivial) trivial).mono fun after value _ _ =>
    rest value after)

theorem judge_pure {β : Type} {value : β} {judged : β → Prop} (holds : judged value) :
    (pure value : Line β).Sustains Ledger.Answers (fun _ => True) (fun _ => judged) ledger :=
      .pure trivial holds

theorem packageFor_decision {stationRuns : List StationRun} {review : ReviewerStationResult}
    {uses : Bool} {decision : Decision}
    (decided : (packageFor job stationRuns review uses).decision = some decision) :
    decision.interrupted = none := by
  unfold packageFor evaluateDelivery at decided
  dsimp only at decided
  split at decided
  · split at decided <;> cases decided
    rfl
  · cases decided

variable {progress : Progress} {before after : Ledger}

theorem finalizeWithDelivery_unasked {package : DeliveryPackage}
    {review : Option ReviewerStationResult}
    (unasked : ∀ decision, package.decision = some decision → decision.interrupted = none) :
    (finalizeWithDelivery progress package review).Sustains Ledger.Answers (fun _ => True)
      (fun _ => FulfillmentResult.Unasked) ledger :=
  judge_bind fun _ _ => judge_bind fun _ _ => judge_bind fun _ _ => judge_pure unasked

theorem walkStations_unasked (plan : List Visit) {attempt : Nat} :
    (walkStations job progress attempt plan).Sustains Ledger.Answers (fun _ => True)
      (fun _ => FulfillmentResult.Unasked) ledger := by
  induction plan generalizing progress attempt ledger with
  | nil => exact finalizeWithDelivery_unasked fun _ => packageFor_decision
  | cons visit later ih =>
    refine judge_bind fun cancelled _ => ?_
    split
    · exact judge_bind fun _ _ => judge_bind fun _ _ => judge_pure nofun
    · split
      · exact judge_bind fun _ _ => finalizeWithDelivery_unasked fun _ => packageFor_decision
      · refine judge_bind fun ⟨run, outcome⟩ _ => ?_
        dsimp only
        split
        · exact judge_bind fun _ _ => judge_bind fun _ _ => judge_pure nofun
        · split
          · refine judge_bind fun _ _ => judge_bind fun _ _ => judge_pure fun decision same => ?_
            cases same
            rfl
          · split
            · exact judge_bind fun _ _ => judge_pure nofun
            · exact ih

/-- A result asks for no decision, or the call has halted for it. -/
def Explained (before after : Ledger) (result : Except LineError FulfillmentResult) : Prop :=
  ∀ line decision stationRunId, result = .ok line → line.decision = some decision →
    decision.interrupted = some stationRunId → Halted before decision stationRunId after

theorem Explained.error (error : LineError) : Explained before after (.error error) := by
  intro _ _ _ same
  cases same

theorem Explained.unasked {line : FulfillmentResult} (unasked : line.Unasked) :
    Explained before after (.ok line) := by
  rintro _ decision stationRunId ⟨⟩ decided about
  cases (unasked decision decided).symm.trans about

theorem walkFrom_explained {start : Int} {attempt : Nat} :
    (walkFrom job progress start attempt).Sustains Ledger.Answers (fun _ => True)
    (fun after => Explained before after)
      ledger := by
  unfold walkFrom
  split
  · exact .pure trivial (Explained.error _)
  · exact .bind ((walkStations_unasked _).mono fun _ _ _ unasked => .pure trivial (Explained.unasked unasked))

theorem followOutcome_explained {run : Run} {effects : List Effect} {workspace : Workspace}
    (marked : ∀ last, before.stationRuns.getLast? = some last →
      (reconcileRun before.stationRuns effects workspace).stationStatusTransition = some .needsRecovery →
      ledger.stationRuns = Ledger.replaceStationRun { last with status := .needsRecovery } before.stationRuns) :
    (followOutcome job run before.stationRuns (reconcileRun before.stationRuns effects workspace)).Sustains Ledger.Answers
      (fun _ => True) (fun after => Explained before after) ledger := by
  unfold followOutcome
  split
  next decision _ decided =>
    obtain ⟨last, found, running, about, moves⟩ := reconcileRun_halts decided
    refine .ask trivial fun _ after written => ?_
    obtain rfl : after = _ := written
    have kept : (finalizeRun run .blocked (some decision)).Sustains Ledger.Answers (fun _ => True)
        (fun after _ =>
        after.stationRuns = ledger.stationRuns ∧ decision ∈ after.decisions)
        { ledger with decisions := ledger.decisions.filter (·.id ≠ decision.id) ++ [decision] } := by
      refine .ask trivial fun persisted after read => ?_
      obtain ⟨-, rfl⟩ := read
      split
      · exact .pure trivial ⟨rfl, by simp⟩
      · refine .ask trivial fun _ after written => ?_
        obtain rfl : after = _ := written
        exact .pure trivial ⟨rfl, by simp⟩
    refine .bind (kept.mono ?_)
    rintro after final - ⟨same, recorded⟩
    refine .pure trivial ?_
    rintro _ _ stationRunId ⟨⟩ ⟨⟩ about'
    exact ⟨⟨last, found, Option.some.inj (about.symm.trans about'), running,
      same.trans (marked last found moves)⟩, recorded⟩
  next =>
    exact .bind ((Program.Sustains.always (fun _ _ _ _ _ _ => trivial) trivial).mono fun _ _ _ _ =>
      walkFrom_explained)

theorem resumeRun_explained {run : Run} :
    (resumeRun job run).Sustains Ledger.Answers (fun _ => True)
    (fun after => Explained ledger after) ledger := by
  refine .ask trivial fun stationRuns after read => ?_
  obtain ⟨rfl, rfl⟩ : stationRuns = ledger.stationRuns ∧ ledger = after := ⟨read.1, read.2.symm⟩
  refine .bind ((readEffectsForLast_reads trivial).mono ?_)
  rintro after effects - ⟨rfl, rfl⟩
  refine .ask trivial fun workspace later read => ?_
  obtain rfl : _ = later := read.symm
  have marked : (transitionStation after.stationRuns (reconcileRun after.stationRuns after.lastEffects workspace)).Sustains
      Ledger.Answers (fun _ => True) (fun later _ => ∀ last, after.stationRuns.getLast? = some last →
        (reconcileRun after.stationRuns after.lastEffects workspace).stationStatusTransition =
          some .needsRecovery →
        later.stationRuns = Ledger.replaceStationRun { last with status := .needsRecovery } after.stationRuns) after := by
    unfold transitionStation
    split
    next last status found moves =>
      refine ⟨trivial, fun _ later written => .pure trivial fun other also marks => ?_⟩
      cases found.symm.trans also
      cases moves.symm.trans marks
      cases written
      rfl
    next unmoved => exact .pure trivial fun last found marks => absurd marks (unmoved last _ found)
  exact .bind (marked.mono fun _ _ _ marked => followOutcome_explained marked)

theorem Explained.release {result : Except LineError FulfillmentResult}
    (explained : Explained before ledger result) : (do
      ask .releaseRunLease
      return result : Line _).Sustains Ledger.Answers (fun _ => True) (fun after => Explained before after) ledger := by
  refine .ask trivial fun _ after released => ?_
  obtain rfl : after = ledger := released
  exact .pure trivial explained

theorem resume_explained :
    (FulfillmentLine.resume job).Sustains Ledger.Answers (fun _ => True)
    (fun after => Explained ledger after) ledger := by
  unfold FulfillmentLine.resume
  refine .ask trivial fun first after read => ?_
  obtain rfl : ledger = after := read.2.symm
  split
  · exact .pure trivial (Explained.error _)
  · split
    · exact .pure trivial (Explained.error _)
    · refine .ask trivial fun claimed after asked => ?_
      obtain rfl : ledger = after := asked.symm
      split
      · exact .pure trivial (Explained.error _)
      · refine .ask trivial fun again after read => ?_
        obtain rfl : ledger = after := read.2.symm
        split
        · exact (Explained.error _).release
        · split
          · exact (Explained.error _).release
          · exact .bind (resumeRun_explained.mono fun _ _ _ explained => explained.release)

theorem Halted.awaits {decision : Decision} {stationRunId : String}
    (halted : Halted before decision stationRunId after) :
    ∃ station, before.stationRuns.getLast? = some station ∧ station.id = stationRunId ∧
      station.status = .running ∧
      after.stationRuns = Ledger.replaceStationRun { station with status := .needsRecovery } before.stationRuns ∧
      after.Awaits after.ids station := by
  obtain ⟨station, found, named, running, marked⟩ := halted.interrupted
  have waits : after.stationRuns.getLast? = some { station with status := .needsRecovery } := by
    simp [marked, Ledger.replaceStationRun]
  exact ⟨station, found, named, running, marked, fun _ member => member, .needsRecovery, by simp, by simp, waits⟩

end asking

/-- A resume that asks for a decision about an interrupted station records it and marks
the station. From then on, whatever calls are made and wherever they stop, every
resume reruns that station with the next attempt, until another station run is
recorded: none asks again, and none goes on with a later station. -/
theorem asked_then_rerun (runId : String) (route : Route) (manifest : Manifest) (before after later : Ledger)
    (line : FulfillmentResult) (decision : Decision) (stationRunId : String)
    (returned : Program.Returns Ledger.Answers ((Request.resume manifest).program runId route) before (.ok line) after)
    (decided : line.decision = some decision) (about : decision.interrupted = some stationRunId)
    (since : Since runId route after later) :
    decision ∈ after.decisions ∧ ∃ station, before.stationRuns.getLast? = some station ∧
      station.id = stationRunId ∧ station.status = .running ∧
      after.stationRuns = Ledger.replaceStationRun { station with status := .needsRecovery } before.stationRuns ∧
      (later.Extends after.ids ∨ ∀ workspace, (later.reconciled workspace).action = .rerunStation ∧
        (later.reconciled workspace).rerunAttemptNumber = some (station.attemptNumber + 1) ∧
        resumeStartIndex route later.stationRuns (later.reconciled workspace) =
          stationIndex route station.stationId) := by
  have explains : (FulfillmentLine.resume ⟨runId, route, manifest⟩).Sustains Ledger.Answers (fun _ => True)
      (fun after => Explained before after) before := resume_explained
  have explained : Explained before after (.ok line) := explains.returned returned
  have halted := explained line decision stationRunId rfl decided about
  obtain ⟨station, found, named, running, marked, awaits⟩ := halted.awaits
  have undecided : later.Undecided after.ids station := Ledger.Undecided.since (.inr awaits) since
  exact ⟨halted.recorded, station, found, named, running, marked, undecided.imp_right fun awaits =>
    awaits.rerun route⟩

/-! A station that stops after it has changed a file, which is then changed again. -/

def driftScene : Scene :=
  ⟨false, ⟨.completed "built", ["effect_1"]⟩,
    [⟨"effect_1", "stationrun_1", .file, "parser.py", some "sha256:aa", some "sha256:bb", .applied,
      true, true⟩],
    .forStatus .pass, fun _ => some "sha256:cc"⟩

/-- The run stops within the work of its first station, and a resume asks. -/
def askedDrift : Option (Ledger × Except LineError FulfillmentResult × Ledger) :=
  (driftScene.play "run_1" reviewedRoute (.run sampleManifest) (.replicate 8 "stationrun_1") .empty).bind fun before =>
    (driftScene.finish "run_1" reviewedRoute (.resume sampleManifest) (.replicate 11 "unused") before).map (before, ·)

def Decision.onDrift : Decision := .resumeDrift "stationrun_1" 1 true

theorem askedDrift_runs :
    ∃ before line after, askedDrift = some (before, .ok line, after) ∧
      History "run_1" reviewedRoute (fun _ _ => True) before ∧
      Program.Returns Ledger.Answers ((Request.resume sampleManifest).program "run_1" reviewedRoute) before (.ok line) after ∧
      line.decision = some .onDrift := by
  have computed : (askedDrift.bind fun asked => asked.2.1.toOption.bind (·.decision)) = some .onDrift := by
    decide +kernel
  obtain ⟨⟨before, result, after⟩, asked, decided⟩ := Option.bind_eq_some_iff.mp computed
  obtain ⟨line, ok, decided⟩ := Option.bind_eq_some_iff.mp decided
  obtain ⟨ledger, first, rest⟩ := Option.bind_eq_some_iff.mp asked
  obtain ⟨⟨value, final⟩, second, same⟩ := Option.map_eq_some_iff.mp rest
  cases same
  cases result with
  | error => cases ok
  | ok other =>
    cases ok
    exact ⟨before, line, after, asked, .call .start trivial (Scene.play_stops first),
      Scene.finish_returns second, decided⟩

theorem asked_then_rerun_drift :
    ∃ before line after later,
      Program.Returns Ledger.Answers ((Request.resume sampleManifest).program "run_1" reviewedRoute)
      before (.ok line) after ∧ Since "run_1" reviewedRoute after later ∧ Decision.onDrift ∈ after.decisions ∧
      ∃ station, before.stationRuns.getLast? = some station ∧ station.id = "stationrun_1" ∧
        station.status = .running ∧
        after.stationRuns = Ledger.replaceStationRun { station with status := .needsRecovery } before.stationRuns ∧
        (later.Extends after.ids ∨ ∀ workspace, (later.reconciled workspace).action = .rerunStation ∧
          (later.reconciled workspace).rerunAttemptNumber = some (station.attemptNumber + 1) ∧
          resumeStartIndex reviewedRoute later.stationRuns (later.reconciled workspace) =
            stationIndex reviewedRoute station.stationId) := by
  obtain ⟨before, line, after, _, _, returned, decided⟩ := askedDrift_runs
  exact ⟨before, line, after, after, returned, .now,
    asked_then_rerun "run_1" reviewedRoute sampleManifest before after after line .onDrift "stationrun_1"
      returned decided rfl .now⟩

/-- The second resume does not ask again, though nobody has decided and the file
is still the changed one. -/
theorem drift_not_asked_again :
    ¬∀ (runId : String) (route : Route) (manifest : Manifest) (before after later : Ledger)
    (line : FulfillmentResult)
      (decision : Decision) (stationRunId : String) (workspace : Workspace),
      History runId route (fun _ _ => True) before →
      Program.Returns Ledger.Answers ((Request.resume manifest).program runId route) before (.ok line) after →
      line.decision = some decision → decision.interrupted = some stationRunId →
        Since runId route after later →
      (later.reconciled workspace).action = .decisionRequired := by
  intro sticky
  obtain ⟨before, line, after, asked, history, returned, decided⟩ := askedDrift_runs
  have repeated := sticky "run_1" reviewedRoute sampleManifest before after after line .onDrift "stationrun_1"
    driftScene.workspace history returned decided rfl .now
  have computed : (askedDrift.map fun asked => (asked.2.2.reconciled driftScene.workspace).action) =
      some .rerunStation := by decide +kernel
  rw [asked, Option.map_some, repeated] at computed
  cases computed

end TokenPak.Dispatch
