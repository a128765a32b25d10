import Mathlib.Data.List.Nodup
import TokenPak.Dispatch.Runner

/-! A delivered run and its review. A walk delivers after a passing review, or
when it meets no reviewer station at all; only a resume can begin behind the
reviewer. -/

namespace TokenPak.Dispatch
open Library

def StationRun.verdict (row : StationRun) : Option ReviewerStatus :=
  match row.status, row.payload with
  | .completed, some (.review result) => some result.status
  | _, _ => none

def Ledger.verdict (ledger : Ledger) : Option ReviewerStatus :=
  (ledger.stationRuns.filterMap StationRun.verdict).getLast?

/-- A run recorded as delivered was passed by its reviewer. -/
def DeliveredOnPass (ledger : Ledger) : Prop :=
  ∀ run, ledger.run = some run → run.status = .delivered → ledger.verdict = some .pass

theorem StationRun.verdict_of_open {row : StationRun} (unfinished : row.status ≠ .completed) :
    row.verdict = none := by
  unfold verdict
  split
  next completed _ => exact absurd completed unfinished
  next => rfl

namespace Ledger

variable {row : StationRun} {rows : List StationRun}

theorem replaceStationRun_unique (unique : (rows.map StationRun.id).Nodup) :
    ((replaceStationRun row rows).map StationRun.id).Nodup := by
  rw [replaceStationRun, List.map_append, List.nodup_append]
  refine ⟨unique.sublist ((List.filter_sublist).map _), by simp, ?_⟩
  rintro id member other last rfl
  obtain ⟨kept, found, named⟩ := List.mem_map.mp member
  obtain rfl := List.mem_singleton.mp last
  simp [named] at found

theorem replaceStationRun_verdicts (silent : row.verdict = none)
    (replaced : ∀ other ∈ rows, other.id = row.id → other.verdict = none) :
    (replaceStationRun row rows).filterMap StationRun.verdict = rows.filterMap StationRun.verdict := by
  have last : [row].filterMap StationRun.verdict = [] := by simp [silent]
  rw [replaceStationRun, List.filterMap_append, last, List.append_nil]
  induction rows with
  | nil => rfl
  | cons other rows ih =>
    have rest := ih fun row member => replaced row (.tail _ member)
    by_cases same : other.id = row.id
    · rw [List.filter_cons_of_neg (by simp [same]), rest,
        List.filterMap_cons_none (replaced other (.head _) same)]
    · rw [List.filter_cons_of_pos (by simp [same]), List.filterMap_cons, List.filterMap_cons, rest]

theorem replaceStationRun_last {status : ReviewerStatus} (verdict : row.verdict = some status) :
    ((replaceStationRun row rows).filterMap StationRun.verdict).getLast? = some status := by
  simp [replaceStationRun, verdict]

end Ledger

/-- The reviewer passes the run only where it may. -/
def Clears (may : Prop) : (op : Op) → Reply op → Prop
  | .review _, review => review.status = .pass → may
  | _, _ => True

def Clearing (may : Prop) (ledger : Ledger) (op : Op) (reply : Reply op) (after : Ledger) : Prop :=
  ledger.Answers op reply after ∧ Clears may op reply

variable {ledger : Ledger}
variable {after : Ledger} {runId : String} {route : Route}

theorem clearing_true {op : Op} {reply : Reply op} (answered : ledger.Answers op reply after) :
    Clearing True ledger op reply after :=
  ⟨answered, by cases op <;> simp [Clears]⟩

/-- The state of a call: the latest verdict, which is a pass only where it may be
one, and what a delivered run would mean. -/
structure Walking (may : Prop) (verdict : Option ReviewerStatus) (deliverable : Prop)
    (ledger : Ledger) : Prop where
  unique : (ledger.stationRuns.map StationRun.id).Nodup
  latest : ledger.verdict = verdict
  delivered : ∀ run, ledger.run = some run → run.status = .delivered → deliverable
  cleared : verdict = some .pass → may

structure Reviewed (may : Prop) (ledger : Ledger) : Prop where
  unique : (ledger.stationRuns.map StationRun.id).Nodup
  passed : DeliveredOnPass ledger
  cleared : ledger.verdict = some .pass → may

/-- Every row with this identifier is without a verdict. -/
def Silent (id : String) (ledger : Ledger) :
    Prop := ∀ row ∈ ledger.stationRuns, row.id = id → row.verdict = none

namespace Walking
variable {may : Prop} {verdict : Option ReviewerStatus} {deliverable : Prop} {ledger after : Ledger}

theorem reviewed (walking : Walking may verdict deliverable ledger)
    (passes : deliverable → verdict = some .pass) :
    Reviewed may ledger :=
  ⟨walking.unique, fun run found delivered =>
    walking.latest.trans (passes (walking.delivered run found delivered)),
    fun passed => walking.cleared (walking.latest ▸ passed)⟩

theorem widen {wider : Prop} (walking : Walking may verdict deliverable ledger) (implies : deliverable → wider) :
    Walking may verdict wider ledger :=
  ⟨walking.unique, walking.latest, fun run found delivered => implies (walking.delivered run found delivered),
    walking.cleared⟩

theorem frame (walking : Walking may verdict deliverable ledger) (sameRun : after.run = ledger.run)
    (sameRows : after.stationRuns = ledger.stationRuns) : Walking may verdict deliverable after := by
  refine ⟨sameRows ▸ walking.unique, ?_, sameRun ▸ walking.delivered, walking.cleared⟩
  rw [Ledger.verdict, sameRows]
  exact walking.latest

theorem writeRun (walking : Walking may verdict deliverable ledger) {run : Run}
    (meaning : run.status = .delivered → deliverable) :
    Walking may verdict deliverable { ledger with run := some run } := by
  refine ⟨walking.unique, walking.latest, fun other found => ?_, walking.cleared⟩
  cases found
  exact meaning

theorem writeSilent (walking : Walking may verdict deliverable ledger) {row : StationRun}
    (silent : row.verdict = none)
    (others : Silent row.id ledger) :
    Walking may verdict deliverable { ledger with stationRuns := Ledger.replaceStationRun row ledger.stationRuns } := by
  refine ⟨Ledger.replaceStationRun_unique walking.unique, ?_, walking.delivered, walking.cleared⟩
  rw [Ledger.verdict, Ledger.replaceStationRun_verdicts silent others]
  exact walking.latest

theorem writeVerdict (walking : Walking may verdict deliverable ledger) {row : StationRun}
    {status : ReviewerStatus}
    (judged : row.verdict = some status) (allowed : status = .pass → may) :
    Walking may (some status) deliverable { ledger with stationRuns := Ledger.replaceStationRun row ledger.stationRuns } :=
  ⟨Ledger.replaceStationRun_unique walking.unique, Ledger.replaceStationRun_last judged, walking.delivered,
    fun passed => allowed (Option.some.inj passed)⟩

end Walking

theorem Silent.replace {id : String} {row : StationRun} (silent : Silent id ledger)
    (also : row.verdict = none) :
    Silent id { ledger with stationRuns := Ledger.replaceStationRun row ledger.stationRuns } := by
  intro other member named
  obtain kept | last := List.mem_append.mp member
  · exact silent other (List.mem_filter.mp kept).1 named
  · rwa [List.mem_singleton.mp last]

/-- An operation that writes neither the run nor a station run. -/
def Op.Quiet : Op → Prop
  | .writeRun _ => False
  | .writeStationRun _ => False
  | _ => True

theorem Ledger.Answers.quiet {op : Op} {reply : Reply op}
    (answered : ledger.Answers op reply after) (quiet : op.Quiet) :
    after.run = ledger.run ∧ after.stationRuns = ledger.stationRuns := by
  cases op with
  | writeRun => exact quiet.elim
  | writeStationRun => exact quiet.elim
  | readRun | readStationRuns | readEffects | uuid => exact answered.2 ▸ ⟨rfl, rfl⟩
  | work =>
    obtain ⟨_, rfl⟩ := answered
    exact ⟨rfl, rfl⟩
  | markEffectApplied | writeDecision | writeLateResult | writeReceipt | tryClaimRunLease | releaseRunLease | hashWorkspace
  | isCancelled | review =>
    cases answered
    exact ⟨rfl, rfl⟩

/-! What each part of a call leaves. A part that does not end the walk keeps the
verdict and returns a run that is not delivered. -/

abbrev Keeps {α : Type} (may : Prop) (verdict : Option ReviewerStatus) (deliverable : Prop) (result : α → Prop)
    (part : Line α)
    (ledger : Ledger) : Prop :=
  part.Sustains (Clearing may) (Reviewed may) (fun after value => Walking may verdict deliverable after ∧
    result value) ledger

section parts
variable {α : Type} {may : Prop} {verdict : Option ReviewerStatus} {deliverable : Prop} {ledger : Ledger} {run : Run}

theorem Walking.ask {op : Op} {next : Reply op → Line α} {post : Ledger → α → Prop}
    (walking : Walking may verdict deliverable ledger) (passes : deliverable → verdict = some .pass)
    (quiet : op.Quiet)
    (rest : ∀ reply after, Clearing may ledger op reply after → Walking may verdict deliverable after →
      (next reply).Sustains (Clearing may) (Reviewed may) post after) :
    (Dispatch.ask op >>= next).Sustains (Clearing may) (Reviewed may) post ledger := by
  refine .ask (walking.reviewed passes) fun reply after answered => rest reply after answered ?_
  exact walking.frame (answered.1.quiet quiet).1 (answered.1.quiet quiet).2

theorem appendOnce_keeps {linked : List String} {link : List String → Run} {id : String}
    (walking : Walking may verdict deliverable ledger) (passes : deliverable → verdict = some .pass)
    (meaning : run.status = .delivered → deliverable) (same : ∀ ids, (link ids).status = run.status) :
    Keeps may verdict deliverable (fun run => run.status = .delivered → deliverable)
    (appendOnce linked link run id) ledger := by
  unfold appendOnce
  split
  · exact .pure (walking.reviewed passes) ⟨walking, meaning⟩
  · refine .ask (walking.reviewed passes) fun _ after written => ?_
    obtain rfl : after = _ := written.1
    have linkMeaning : (link (linked ++ [id])).status = .delivered → deliverable := by
      rw [same]
      exact meaning
    exact .pure ((walking.writeRun linkMeaning).reviewed passes) ⟨walking.writeRun linkMeaning, linkMeaning⟩

theorem finalizeRun_keeps {status : RunStatus} {decision : Option Decision}
    (walking : Walking may verdict deliverable ledger)
    (passes : deliverable → verdict = some .pass) (final : status = .delivered → deliverable) :
    Keeps may verdict deliverable (fun run => run.status = .delivered → deliverable)
    (finalizeRun run status decision)
      ledger := by
  unfold finalizeRun
  refine walking.ask passes trivial fun persisted after read walking => ?_
  obtain ⟨rfl, rfl⟩ : persisted = ledger.run ∧ after = ledger := read.1
  split
  next finished found =>
    refine .pure (walking.reviewed passes) ⟨walking, walking.delivered finished ?_⟩
    exact (Option.filter_eq_some_iff.mp found).1
  next =>
    refine .ask (walking.reviewed passes) fun _ after written => ?_
    obtain rfl : after = _ := written.1
    refine .pure (Walking.reviewed (walking.writeRun ?_) passes) ⟨walking.writeRun ?_, ?_⟩ <;> exact final

theorem Walking.askSilent {row : StationRun} {next : Unit → Line α} {post : Ledger → α → Prop}
    (walking : Walking may verdict False ledger) (silent : row.verdict = none) (others : Silent row.id ledger)
    (rest : ∀ after, Walking may verdict False after → Silent row.id after →
      (next ()).Sustains (Clearing may) (Reviewed may) post after) :
    (Dispatch.ask (.writeStationRun row) >>= next).Sustains (Clearing may) (Reviewed may) post ledger := by
  refine .ask (walking.reviewed False.elim) fun _ after written => ?_
  obtain rfl : after = _ := written.1
  exact rest _ (walking.writeSilent silent others) (others.replace silent)

theorem Walking.done {result : α → Prop} {value : α} (walking : Walking may verdict False ledger)
    (holds : result value) :
    Keeps may verdict False result (pure value : Line α) ledger :=
      .pure (walking.reviewed False.elim) ⟨walking, holds⟩

variable {station : RouteStation} {attempt : Nat}

theorem stationRun_keeps (walking : Walking may verdict False ledger) :
    Keeps may verdict False (fun _ => True) (stationRun station attempt) ledger := by
  unfold stationRun
  refine walking.ask False.elim trivial fun id after drawn walking => ?_
  have fresh : Silent id after := fun row member named => absurd named (drawn.1.1 row (drawn.1.2 ▸ member))
  refine walking.ask False.elim trivial fun cancelled later asked walking => ?_
  obtain rfl : later = after := asked.1
  dsimp only
  split
  · exact walking.askSilent rfl fresh fun _ walking _ => walking.done trivial
  · refine walking.askSilent rfl fresh fun started walking silent => ?_
    refine walking.ask False.elim trivial fun work worked left walking => ?_
    obtain ⟨effects, rfl⟩ := left.1
    -- the terminal row takes the place of the intent row
    have silent : Silent id { started with effects := effects } := silent
    split
    next payload => exact walking.askSilent rfl silent fun _ walking _ => walking.done trivial
    next exceeded => exact walking.askSilent rfl silent fun _ walking _ => walking.done trivial
    next late =>
      refine walking.askSilent rfl silent fun _ walking _ => ?_
      split
      · exact walking.ask False.elim trivial fun _ _ _ walking => walking.done trivial
      · exact walking.done trivial

theorem appendEffects_keeps (ids : List String) (walking : Walking may verdict False ledger)
    (open_ : run.status ≠ .delivered) :
    Keeps may verdict False (fun run => run.status ≠ .delivered) (appendEffects run ids) ledger := by
  induction ids generalizing run ledger with
  | nil => exact walking.done open_
  | cons id ids ih =>
    refine .bind (Program.Sustains.mono (appendOnce_keeps walking False.elim open_ fun _ => rfl) ?_)
    rintro after run - ⟨walking, open_⟩
    exact ih walking open_

theorem runWorkerStation_keeps (walking : Walking may verdict False ledger)
    (open_ : run.status ≠ .delivered) :
    Keeps may verdict False (fun result => result.1.status ≠ .delivered)
    (runWorkerStation run station attempt) ledger := by
  unfold runWorkerStation
  refine .bind ((stationRun_keeps walking).mono ?_)
  rintro after outcome - ⟨walking, -⟩
  refine .bind (Program.Sustains.mono (appendOnce_keeps walking False.elim open_ fun _ => rfl) ?_)
  rintro after run - ⟨walking, open_⟩
  refine .bind ((appendEffects_keeps outcome.effectIds walking open_).mono ?_)
  rintro after run - ⟨walking, open_⟩
  cases outcome.lateResult with
  | none => exact walking.done open_
  | some late =>
    refine .bind (Program.Sustains.mono (appendOnce_keeps walking False.elim open_ fun _ => rfl) ?_)
    rintro after run - ⟨walking, open_⟩
    exact walking.done open_

theorem markRemainingCancelled_keeps (stations : List RouteStation) (walking : Walking may verdict False ledger)
    (open_ : run.status ≠ .delivered) :
    Keeps may verdict False (fun run => run.status ≠ .delivered)
    (markRemainingCancelled run stations) ledger := by
  induction stations generalizing run ledger with
  | nil => exact walking.done open_
  | cons station stations ih =>
    refine walking.ask False.elim trivial fun id after drawn walking => ?_
    have fresh : Silent id after := fun row member named => absurd named (drawn.1.1 row (drawn.1.2 ▸ member))
    refine walking.askSilent rfl fresh fun _ walking _ => ?_
    refine .bind (Program.Sustains.mono (appendOnce_keeps walking False.elim open_ fun _ => rfl) ?_)
    rintro after run - ⟨walking, open_⟩
    exact ih walking open_

/-- The review is the latest verdict. -/
theorem runReviewerStation_keeps (walking : Walking may verdict False ledger)
    (open_ : run.status ≠ .delivered) :
    (runReviewerStation run station).Sustains (Clearing may) (Reviewed may)
      (fun after result => Walking may (some result.2.1.status) False after ∧
          result.1.status ≠ .delivered) ledger := by
  refine walking.ask False.elim trivial fun review after reviewed walking => ?_
  refine walking.ask False.elim trivial fun id after _ walking => ?_
  refine .ask (walking.reviewed False.elim) fun _ after written => ?_
  obtain rfl : after = _ := written.1
  refine .bind (Program.Sustains.mono (appendOnce_keeps (walking.writeVerdict rfl reviewed.2) False.elim open_ fun _ => rfl) ?_)
  rintro after run - ⟨walking, open_⟩
  exact walking.done open_

theorem recordDecision_keeps {decision : Option Decision} (walking : Walking may verdict deliverable ledger)
    (passes : deliverable → verdict = some .pass) (meaning : run.status = .delivered → deliverable) :
    Keeps may verdict deliverable (fun run => run.status = .delivered → deliverable)
    (recordDecision run decision) ledger := by
  cases decision with
  | none => exact .pure (walking.reviewed passes) ⟨walking, meaning⟩
  | some decision =>
    exact walking.ask passes trivial fun _ _ _ walking => appendOnce_keeps walking passes meaning fun _ => rfl

theorem issueReceipt_keeps {outcome : LineStatus × RunStatus} (walking : Walking may verdict deliverable ledger)
    (passes : deliverable → verdict = some .pass) (meaning : run.status = .delivered → deliverable) :
    Keeps may verdict deliverable (fun _ => True) (issueReceipt run outcome) ledger := by
  have written (status : RunStatus) :
      Keeps may verdict deliverable (fun _ => True) (buildAndWriteReceipt run status) ledger := by
    refine walking.ask passes trivial fun _ after _ walking =>
      .ask (walking.reviewed passes) fun _ after written => ?_
    obtain rfl : after = _ := written.1
    refine .pure (Walking.reviewed (walking.writeRun ?_) passes) ⟨walking.writeRun ?_, trivial⟩ <;>
      exact meaning
  unfold issueReceipt
  split
  · exact written _
  · exact written _
  · exact .pure (walking.reviewed passes) ⟨walking, trivial⟩

theorem finalizeWithDelivery_reviewed {progress : Progress} {package : DeliveryPackage}
    {review : Option ReviewerStationResult}
    (walking : Walking may verdict False ledger) (open_ : progress.run.status ≠ .delivered)
    (passes : package.status = .deliveryReady → verdict = some .pass) :
    (finalizeWithDelivery progress package review).Sustains (Clearing may) (Reviewed may) (fun _ _ =>
      True) ledger := by
  have outcome : (lineOutcome package.status).2 = .delivered → package.status = .deliveryReady := by
    cases package.status <;> decide
  have walking : Walking may verdict (package.status = .deliveryReady) ledger := walking.widen False.elim
  refine .bind ((recordDecision_keeps walking passes fun delivered => absurd delivered open_).mono ?_)
  rintro after run - ⟨walking, -⟩
  refine .bind ((finalizeRun_keeps walking passes outcome).mono ?_)
  rintro after run - ⟨walking, meaning⟩
  refine .bind ((issueReceipt_keeps walking passes meaning).mono ?_)
  rintro after receipt - ⟨walking, -⟩
  exact .pure (walking.reviewed passes) trivial

theorem packageFor_ready {job : Job} {stationRuns : List StationRun}
    {review : ReviewerStationResult} {uses : Bool}
    (ready : (packageFor job stationRuns review uses).status = .deliveryReady) : review.status = .pass :=
  evaluateDelivery_ready ready

/-- A reviewer station is among the stations to come. -/
def ReviewAhead (plan : List Visit) : Prop := ∃ visit ∈ plan, visit.station.isReviewerStation = true

/-- A walk with its review ahead, or behind it and passed. -/
theorem walkStations_reviewed {job : Job} (plan : List Visit) {progress : Progress}
    (walking : Walking may verdict False ledger) (open_ : progress.run.status ≠ .delivered)
    (review : ReviewAhead plan ∨ verdict = some .pass) :
    (walkStations job progress attempt plan).Sustains (Clearing may) (Reviewed may) (fun _ _ => True) ledger := by
  induction plan generalizing progress attempt ledger with
  | nil =>
    refine finalizeWithDelivery_reviewed walking open_ fun _ => review.resolve_left ?_
    rintro ⟨_, member, _⟩
    cases member
  | cons visit later ih =>
    have halt {after : Ledger} {run : Run} {status : RunStatus} {decision : Option Decision}
        {result : Run → FulfillmentResult} (walking : Walking may verdict False after)
          (unsuccessful : status ≠ .delivered) :
        (do return result (← finalizeRun run status decision) : Line FulfillmentResult).Sustains (Clearing may) (Reviewed may)
          (fun _ _ => True) after := by
      refine .bind ((finalizeRun_keeps walking False.elim unsuccessful).mono ?_)
      rintro after run - ⟨walking, -⟩
      exact .pure (walking.reviewed False.elim) trivial
    have cancel {after : Ledger} {run : Run} {stations : List RouteStation} {result : Run → FulfillmentResult}
        (walking : Walking may verdict False after) (open_ : run.status ≠ .delivered) :
        (do
          let run ← markRemainingCancelled run stations
          return result (← finalizeRun run .cancelled none) : Line FulfillmentResult).Sustains (Clearing may) (Reviewed may)
          (fun _ _ => True) after := by
      refine .bind ((markRemainingCancelled_keeps stations walking open_).mono ?_)
      rintro after run - ⟨walking, -⟩
      exact halt walking nofun
    unfold walkStations
    refine walking.ask False.elim trivial fun cancelled after _ walking => ?_
    split
    · exact cancel walking open_
    · split
      next reviewer =>
        refine .bind ((runReviewerStation_keeps walking open_).mono ?_)
        rintro after ⟨run, review, row⟩ - ⟨walking, open_⟩
        exact finalizeWithDelivery_reviewed walking open_ fun ready => congrArg some (packageFor_ready ready)
      next worker =>
        have review : ReviewAhead later ∨ verdict = some .pass := by
          refine review.imp_left ?_
          rintro ⟨station, member, reviews⟩
          obtain rfl | member := List.mem_cons.mp member
          · exact absurd reviews worker
          · exact ⟨station, member, reviews⟩
        refine .bind ((runWorkerStation_keeps walking open_).mono ?_)
        rintro after ⟨run, outcome⟩ - ⟨walking, open_⟩
        dsimp only
        split
        · exact cancel walking open_
        · split
          · exact walking.ask False.elim trivial fun _ _ _ walking => halt walking nofun
          · split
            · exact halt walking nofun
            · exact ih walking open_ review

end parts

/-! The two calls. -/

section calls
variable {may : Prop} {job : Job} {ledger : Ledger}

theorem Reviewed.open_ (reviewed : Reviewed may ledger)
    (unfinished : ∀ run, ledger.run = some run → ¬run.status.Terminal) :
    Walking may ledger.verdict False ledger :=
  ⟨reviewed.unique, rfl, fun run found delivered => unfinished run found (.inl delivered), reviewed.cleared⟩

variable {verdict : Option ReviewerStatus}

theorem walkFrom_reviewed {progress : Progress} {start : Int} {attempt : Nat}
    (walking : Walking may verdict False ledger) (open_ : progress.run.status ≠ .delivered)
    (review : ∀ plan, visits job.route.stations start = some plan → ReviewAhead plan ∨ verdict = some .pass) :
    (walkFrom job progress start attempt).Sustains (Clearing may) (Reviewed may) (fun _ _ => True) ledger := by
  unfold walkFrom
  split
  next => exact .pure (walking.reviewed False.elim) trivial
  next plan found =>
    refine .bind ((walkStations_reviewed plan walking open_ (review plan found)).mono fun after _ reviewed _ => ?_)
    exact .pure reviewed trivial

theorem Reviewed.release {α : Type} {value : α} (reviewed : Reviewed may ledger) :
    (do
      ask .releaseRunLease
      return value : Line α).Sustains (Clearing may) (Reviewed may) (fun _ _ => True) ledger := by
  refine .ask reviewed fun _ after released => ?_
  obtain rfl : after = ledger := released.1
  exact .pure reviewed trivial

/-- From the first station every reviewer station lies ahead. -/
theorem reviewAhead_first {route : Route}
    (reviews : ∃ station ∈ route.stations, station.isReviewerStation = true)
    {plan : List Visit} (planned : visits route.stations 0 = some plan) : ReviewAhead plan := by
  obtain ⟨station, member, reviewer⟩ := reviews
  cases planned
  obtain ⟨index, bound, rfl⟩ := List.getElem_of_mem member
  refine ⟨_, List.mem_map.mpr ⟨(route.stations[index], index), ?_, rfl⟩, reviewer⟩
  simp [List.mem_zipIdx_iff_getElem?]

theorem run_reviewed (reviewed : Reviewed may ledger)
    (reviews : ∃ station ∈ job.route.stations, station.isReviewerStation = true) :
    (FulfillmentLine.run job).Sustains (Clearing may) (Reviewed may) (fun _ _ => True) ledger := by
  unfold FulfillmentLine.run
  refine .ask reviewed fun claimed after asked => ?_
  obtain rfl : ledger = after := asked.1.symm
  split
  · exact .pure reviewed trivial
  · refine .ask reviewed fun existing after read => ?_
    obtain ⟨rfl, rfl⟩ : existing = ledger.run ∧ ledger = after := ⟨read.1.1, read.1.2.symm⟩
    split
    next => exact reviewed.release
    next unfinished =>
      have walking := reviewed.open_ fun run found terminal => by simp [found, terminal] at unfinished
      refine .ask reviewed fun _ after written => ?_
      obtain rfl : after = _ := written.1
      have running : RunStatus.running ≠ .delivered := nofun
      have walking : Walking may ledger.verdict False { ledger with run := some ⟨job.runId, .running, [], [], [], [], none⟩ } :=
        walking.writeRun running
      refine .bind ((walkFrom_reviewed walking running fun plan found =>
        .inl (reviewAhead_first reviews found)).mono ?_)
      exact fun _ _ reviewed _ => reviewed.release

def Ledger.ResumesBeforeReview (route : Route) (ledger : Ledger) : Prop :=
  ∀ workspace plan, (ledger.reconciled workspace).action ≠ .decisionRequired →
    visits route.stations (resumeStartIndex route ledger.stationRuns (ledger.reconciled workspace)) = some plan →
    ReviewAhead plan

theorem promoteEffects_keeps (ids : List String) (walking : Walking may verdict False ledger) :
    Keeps may verdict False (fun _ => True) (promoteEffects ids) ledger := by
  induction ids generalizing ledger with
  | nil => exact walking.done trivial
  | cons id ids ih => exact walking.ask False.elim trivial fun _ _ _ walking => ih walking

theorem transitionStation_keeps {effects : List Effect} {workspace : Workspace}
    (walking : Walking may verdict False ledger) : Keeps may verdict False (fun _ => True)
      (transitionStation ledger.stationRuns (reconcileRun ledger.stationRuns effects workspace)) ledger := by
  unfold transitionStation
  split
  next last status found moves =>
    obtain ⟨unfinished, _, before⟩ := reconcileRun_transition moves
    refine walking.askSilent (StationRun.verdict_of_open unfinished) (fun other member same =>
        ?_) fun _ walking _ =>
      walking.done trivial
    have one : other = last :=
      List.inj_on_of_nodup_map walking.unique member (List.mem_of_getLast? found) same
    exact one ▸ StationRun.verdict_of_open (before last found)
  next => exact walking.done trivial

theorem followOutcome_reviewed {run : Run} {stationRuns : List StationRun}
    {outcome : ResumeOutcome} (walking : Walking may verdict False ledger)
    (open_ : run.status ≠ .delivered) (asks : outcome.Asks)
    (review : ∀ plan, outcome.action ≠ .decisionRequired →
      visits job.route.stations (resumeStartIndex job.route stationRuns outcome) = some plan →
      ReviewAhead plan ∨ verdict = some .pass) :
    (followOutcome job run stationRuns outcome).Sustains (Clearing may) (Reviewed may) (fun _ _ =>
      True) ledger := by
  unfold followOutcome
  split
  next decision _ _ =>
    refine walking.ask False.elim trivial fun _ after _ walking => ?_
    have blocked : RunStatus.blocked ≠ .delivered := nofun
    refine .bind ((finalizeRun_keeps walking False.elim blocked).mono ?_)
    rintro after final - ⟨walking, -⟩
    exact .pure (walking.reviewed False.elim) trivial
  next undecided =>
    refine .bind ((promoteEffects_keeps _ walking).mono ?_)
    rintro after - - ⟨walking, -⟩
    refine walkFrom_reviewed walking open_ fun plan planned => review plan (fun required => ?_) planned
    obtain ⟨decision, found⟩ := Option.ne_none_iff_exists'.mp (asks required)
    exact undecided decision required found

theorem resumeRun_reviewed {run : Run} (walking : Walking may ledger.verdict False ledger)
    (open_ : run.status ≠ .delivered)
    (review : ledger.ResumesBeforeReview job.route ∨ ledger.verdict = some .pass) :
    (resumeRun job run).Sustains (Clearing may) (Reviewed may) (fun _ _ => True) ledger := by
  have reviewed := walking.reviewed False.elim
  unfold resumeRun
  refine .ask reviewed fun stationRuns after read => ?_
  obtain ⟨rfl, rfl⟩ : stationRuns = ledger.stationRuns ∧ ledger = after := ⟨read.1.1, read.1.2.symm⟩
  have reads : (readEffectsForLast ledger.stationRuns).Sustains (Clearing may) (Reviewed may)
      (fun after effects => after = ledger ∧ effects = ledger.lastEffects) ledger :=
    (readEffectsForLast_reads reviewed).restrict fun _ _ _ _ answered => answered.1
  refine .bind (reads.mono ?_)
  rintro after effects - ⟨rfl, rfl⟩
  refine .ask reviewed fun workspace after read => ?_
  obtain rfl : _ = after := read.1.symm
  refine .bind ((transitionStation_keeps walking).mono ?_)
  rintro after - - ⟨walking, -⟩
  exact followOutcome_reviewed walking open_ (reconcileRun_asks _ _ _) fun plan goesOn planned =>
    review.imp_left fun before => before workspace plan goesOn planned

/-- The run is there and has not ended. -/
def Ledger.GoesOn (ledger : Ledger) : Prop := ∃ run, ledger.run = some run ∧ ¬ run.status.Terminal

theorem resume_reviewed (reviewed : Reviewed may ledger)
    (review : ledger.GoesOn → ledger.ResumesBeforeReview job.route ∨ ledger.verdict = some .pass) :
    (FulfillmentLine.resume job).Sustains (Clearing may) (Reviewed may) (fun _ _ => True) ledger := by
  unfold FulfillmentLine.resume
  refine .ask reviewed fun first after read => ?_
  obtain ⟨rfl, rfl⟩ : first = ledger.run ∧ ledger = after := ⟨read.1.1, read.1.2.symm⟩
  split
  next => exact .pure reviewed trivial
  next run found =>
    split
    · exact .pure reviewed trivial
    · refine .ask reviewed fun claimed after asked => ?_
      obtain rfl : ledger = after := asked.1.symm
      split
      · exact .pure reviewed trivial
      · refine .ask reviewed fun again after read => ?_
        obtain ⟨rfl, rfl⟩ : again = ledger.run ∧ ledger = after := ⟨read.1.1, read.1.2.symm⟩
        split
        next => exact reviewed.release
        next run found =>
          split
          · exact reviewed.release
          next unfinished =>
            have walking := reviewed.open_ fun other also terminal => by
              cases found.symm.trans also
              exact unfinished terminal
            have review := review ⟨run, found, unfinished⟩
            refine .bind ((resumeRun_reviewed walking (fun delivered => unfinished (.inl delivered)) review).mono ?_)
            exact fun _ _ reviewed _ => reviewed.release

end calls

/-- Each resume of a run that goes on begins at or before a reviewer station, or
finds the latest verdict to be a pass. -/
def reviewedResumes (route : Route) (ledger : Ledger) : Request → Prop
  | .run _ => True
  | .resume _ => ledger.GoesOn → ledger.ResumesBeforeReview route ∨ ledger.verdict = some .pass

/-- The ledgers that such resumes leave after a given one, when no review in them
passes the run. -/
inductive ResumedUnpassed (runId : String) (route : Route) (start : Ledger) : Ledger → Prop
  | now : ResumedUnpassed runId route start start
  | resume {ledger after : Ledger} {manifest : Manifest}
      (earlier : ResumedUnpassed runId route start ledger)
      (allowed : reviewedResumes route ledger (.resume manifest))
      (stops : Program.Stops (Clearing False) ((Request.resume manifest).program runId route) ledger after) :
      ResumedUnpassed runId route start after

theorem Reviewed.history (reviews : ∃ station ∈ route.stations, station.isReviewerStation = true)
    (history : History runId route (reviewedResumes route) ledger) : Reviewed True ledger := by
  induction history with
  | start => exact ⟨by simp [Ledger.empty], nofun, fun _ => trivial⟩
  | @call before after request _ allowed stops ih =>
    have stops : Program.Stops (Clearing True) (request.program runId route) before after :=
      stops.widen fun _ _ _ _ answered => clearing_true answered
    cases request with
    | run manifest =>
      have sustained : (FulfillmentLine.run ⟨runId, route, manifest⟩).Sustains (Clearing True) _ _ before :=
        run_reviewed ih reviews
      exact sustained.stopped stops
    | resume manifest =>
      have sustained : (FulfillmentLine.resume ⟨runId, route, manifest⟩).Sustains (Clearing True) _ _ before :=
        resume_reviewed ih allowed
      exact sustained.stopped stops

theorem Reviewed.resumed {later : Ledger} (reviewed : Reviewed False ledger)
    (resumed : ResumedUnpassed runId route ledger later) : Reviewed False later := by
  induction resumed with
  | now => exact reviewed
  | @resume before after manifest _ allowed stops ih =>
    have sustained : (FulfillmentLine.resume ⟨runId, route, manifest⟩).Sustains (Clearing False) _ _ before :=
      resume_reviewed ih allowed
    exact sustained.stopped stops

/-- In every history whose resumes begin no later than a reviewer station, unless
the latest verdict is a pass, a run is delivered on a pass only, and a run that has
failed its review is not delivered by resumes whose reviews do not pass it. -/
theorem delivered_on_pass (runId : String) (route : Route) (ledger : Ledger)
    (reviews : ∃ station ∈ route.stations, station.isReviewerStation = true)
    (history : History runId route (reviewedResumes route) ledger) :
    DeliveredOnPass ledger ∧ (ledger.verdict = some .fail → ∀ later, ResumedUnpassed runId route ledger later →
      ∀ run, later.run = some run → run.status ≠ .delivered) := by
  have reviewed := Reviewed.history reviews history
  refine ⟨reviewed.passed, fun failed later resumed run found delivered => ?_⟩
  have unpassed : Reviewed False ledger := by
    refine ⟨reviewed.unique, reviewed.passed, fun passed => ?_⟩
    rw [failed] at passed
    cases passed
  have last := unpassed.resumed resumed
  exact last.cleared (last.passed run found delivered)

/-! A route that builds and reviews. -/

def reviewedRoute : Route where
  id := "route.build"
  stations :=
    [⟨"build", some "builder", none, "station_result.v1"⟩,
      ⟨"review", some "reviewer", none, "review.v1"⟩]
  delivery := fun _ => true

def sampleManifest : Manifest :=
  ⟨"job_1", "route.build", "Fix the parser", ["The tests pass"], ["read"], ["push"], mandatoryDeniedPaths⟩

def judgedScene (status : ReviewerStatus) : Scene :=
  ⟨false, ⟨.completed "built", []⟩, [], .forStatus status, fun _ => none⟩

/-- The worker process stops while it builds. -/
def interruptedLedger : Ledger :=
  ⟨some ⟨"run_1", .running, [], [], [], [], none⟩,
    [⟨"stationrun_1", "build", .running, none, "station_result.v1", 1⟩],
    [], [], [], []⟩

theorem interrupted_resumes : interruptedLedger.ResumesBeforeReview reviewedRoute := by
  intro workspace plan _ planned
  cases planned
  exact ⟨_, .tail _ (.head _), rfl⟩

/-- The same with a second reviewer behind the first. -/
def auditedRoute : Route where
  id := "route.audit"
  stations := reviewedRoute.stations ++ [⟨"audit", some "reviewer", none, "review.v1"⟩]
  delivery := fun _ => true

def failedLedger : Ledger :=
  ⟨some ⟨"run_1", .blocked, ["stationrun_1", "stationrun_2"], [], [], [], none⟩,
    [⟨"stationrun_1", "build", .completed, some (.worker "built"), "station_result.v1", 1⟩,
      ⟨"stationrun_2", "review", .completed, some (.review (.forStatus .fail)), "reviewer_station_result.v1", 1⟩],
    [], [], [], []⟩

theorem failed_resumes : failedLedger.ResumesBeforeReview auditedRoute := by
  intro workspace plan _ planned
  cases planned
  exact ⟨_, .head _, rfl⟩

theorem Scene.play_unpassed {scene : Scene} {request : Request} {ids : List String}
    (strict : scene.review.status ≠ .pass)
    (played : scene.play runId route request ids ledger = some after) :
    Program.Stops (Clearing False) (request.program runId route) ledger after := by
  refine Program.drive_stops (fun id ledger op reply after answered => ?_) played
  refine ⟨scene.answer_sound id ledger op reply after answered, ?_⟩
  cases op with
  | review =>
    cases answered
    exact strict
  | _ => trivial

/-- An interrupted run is resumed and delivered; one that its reviewer has failed is
resumed before the second reviewer, who fails it again. -/
theorem delivered_on_pass_resumed :
    (∃ ledger, History "run_1" reviewedRoute (reviewedResumes reviewedRoute) ledger ∧
      ledger.run.map (·.status) = some .delivered ∧ DeliveredOnPass ledger) ∧
    ∃ later, ResumedUnpassed "run_1" auditedRoute failedLedger later ∧ later.stationRuns.length = 3 ∧
      ∀ run, later.run = some run → run.status ≠ .delivered := by
  have first : (judgedScene .pass).play "run_1" reviewedRoute (.run sampleManifest) (.replicate 7 "stationrun_1") .empty =
      some interruptedLedger := by decide +kernel
  have second : ((judgedScene .pass).play "run_1" reviewedRoute (.resume sampleManifest)
      (.replicate 14 "stationrun_2" ++ .replicate 20 "stationrun_3") interruptedLedger).bind
        (fun ledger => ledger.run.map (·.status)) = some .delivered := by decide +kernel
  obtain ⟨ledger, played, delivered⟩ := Option.bind_eq_some_iff.mp second
  have started : History "run_1" reviewedRoute (reviewedResumes reviewedRoute) interruptedLedger := by
    refine .call .start ?_ (Scene.play_stops first)
    exact trivial
  have history : History "run_1" reviewedRoute (reviewedResumes reviewedRoute) ledger := by
    refine .call started ?_ (Scene.play_stops played)
    exact fun _ => .inl interrupted_resumes
  have reviewer : ∃ station ∈ reviewedRoute.stations, station.isReviewerStation = true :=
    ⟨_, .tail _ (.head _), rfl⟩
  refine ⟨⟨ledger, history, delivered, (delivered_on_pass "run_1" reviewedRoute ledger reviewer history).1⟩, ?_⟩
  have failed : (judgedScene .fail).play "run_1" auditedRoute (.run sampleManifest)
      (.replicate 7 "stationrun_1" ++ .replicate 20 "stationrun_2") .empty = some failedLedger := by decide +kernel
  have audited : ((judgedScene .fail).play "run_1" auditedRoute (.resume sampleManifest)
      (.replicate 30 "stationrun_3") failedLedger).map (fun ledger => ledger.stationRuns.length) = some 3 := by
    decide +kernel
  obtain ⟨later, played, three⟩ := Option.map_eq_some_iff.mp audited
  have blocked : History "run_1" auditedRoute (reviewedResumes auditedRoute) failedLedger := by
    refine .call .start ?_ (Scene.play_stops failed)
    exact trivial
  have resumed : ResumedUnpassed "run_1" auditedRoute failedLedger later := by
    refine .resume .now (fun _ => .inl failed_resumes) (Scene.play_unpassed ?_ played)
    decide
  have reviewer : ∃ station ∈ auditedRoute.stations, station.isReviewerStation = true :=
    ⟨_, .tail _ (.head _), rfl⟩
  exact ⟨later, resumed, three,
    (delivered_on_pass "run_1" auditedRoute failedLedger reviewer blocked).2 rfl later resumed⟩

/-- The reviewer fails the run, and a resume delivers it. -/
theorem failed_run_delivered :
    (∃ station ∈ reviewedRoute.stations, station.isReviewerStation = true) ∧
      ∃ ledger, History "run_1" reviewedRoute (fun _ _ => True) ledger ∧
        ledger.run.map (·.status) = some .delivered ∧ ledger.verdict = some .fail := by
  refine ⟨⟨_, .tail _ (.head _), rfl⟩, ?_⟩
  have both : ((judgedScene .fail).play "run_1" reviewedRoute (.run sampleManifest)
      (.replicate 7 "stationrun_1" ++ .replicate 20 "stationrun_2") .empty).bind (fun blocked =>
        ((judgedScene .fail).play "run_1" reviewedRoute (.resume sampleManifest) (.replicate 20 "stationrun_3") blocked).bind
          fun ledger => ledger.run.map fun run => (run.status, ledger.verdict)) = some (.delivered, some .fail) := by
    decide +kernel
  obtain ⟨blocked, first, rest⟩ := Option.bind_eq_some_iff.mp both
  obtain ⟨ledger, second, ended⟩ := Option.bind_eq_some_iff.mp rest
  obtain ⟨run, found, same⟩ := Option.map_eq_some_iff.mp ended
  obtain ⟨delivered, verdict⟩ := Prod.mk.inj same
  refine ⟨ledger,
    .call (.call .start trivial (Scene.play_stops first)) trivial (Scene.play_stops second), ?_,
    verdict⟩
  rw [found, ← delivered]
  rfl

end TokenPak.Dispatch
