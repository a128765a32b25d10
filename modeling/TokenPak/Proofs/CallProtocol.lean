import TokenPak.Dispatch.Runner

/-! What one call on a run may do, in which order. The protocol follows what the
call knows of the run record, the stations it goes through and the station run it
has open; every later fact about calls is read off its steps. -/

namespace TokenPak.Dispatch
open Library

structure Place where
  id : String
  station : RouteStation
  attempt : Nat

/-- The rows that may be written for an open station run. A review is recorded when
it is complete, as a first attempt. -/
def Place.Admits (place : Place) (row : StationRun) : Prop :=
  row.id = place.id ∧ row.stationId = place.station.id ∧ (row.status = .cancelled ∨
    if place.station.isReviewerStation then row.status = .completed ∧ row.attemptNumber = 1
    else row.attemptNumber = place.attempt)

/-- How far a call is on its way: the stations it set out for, those still ahead and
those executed, the attempt of the next one, the open station run and whether it has
been written. -/
structure Walk where
  plan : List RouteStation
  ahead : List RouteStation
  executed : List RouteStation
  attempt : Nat
  current : Option Place
  recorded : Bool

def Walk.from (plan : List RouteStation) (attempt : Nat) : Walk := ⟨plan, plan, [], attempt, none, true⟩

/-- The walk has opened a station run; every later station begins with its first
attempt. -/
def Walk.onto (walk : Walk) (place : Place) (later : List RouteStation) : Walk := { walk with
  ahead := later
  attempt := 1
  current := some place
  recorded := false }

def Walk.opens (walk : Walk) (id : String) : Walk :=
  match walk.ahead with
  | [] => walk
  | station :: later => walk.onto ⟨id, station, walk.attempt⟩ later

def Walk.records (walk : Walk) : Walk := { walk with recorded := true }

def Walk.executes (walk : Walk) (station : RouteStation) : Walk :=
  { walk with executed := walk.executed ++ [station] }

def stationsFrom (route : Route) (start : Int) : List RouteStation :=
  ((visits route.stations start).getD []).map Visit.station

/-- What a call has done and knows. The run record counts as known from the claim of
the lease on. -/
structure Call where
  holds : Bool
  known : Option (Option Run)
  stationRuns : List StationRun
  effects : List Effect
  outcome : Option ResumeOutcome
  walk : Walk

/-- The call has reconciled the last station and turns to what comes after. -/
def Call.reconciles (route : Route) (call : Call) (workspace : Workspace) : Call :=
  let outcome := reconcileRun call.stationRuns call.effects workspace
  { call with
    outcome := some outcome
    walk := .from (stationsFrom route (resumeStartIndex route call.stationRuns outcome)) outcome.firstAttempt }

def Call.next (route : Route) (call : Call) : (op : Op) → Reply op → Call
  | .tryClaimRunLease, claimed => if claimed then { call with holds := true, known := none } else call
  | .readRun, run => if call.holds then { call with known := some run } else call
  | .writeRun run, _ => { call with known := some (some run) }
  | .readStationRuns, rows => { call with stationRuns := rows }
  | .writeStationRun _, _ => { call with walk := call.walk.records }
  | .readEffects _, effects => { call with effects := effects }
  | .hashWorkspace, workspace => call.reconciles route workspace
  | .uuid, id => { call with walk := call.walk.opens id }
  | .work _ station, _ => { call with walk := call.walk.executes station }
  | .review station, _ => { call with walk := call.walk.executes station }
  | _, _ => call

def Call.Allows (call : Call) : Op → Prop
  | .writeRun run =>
      ∃ known, call.known = some known ∧ ∀ old ∈ known, old.status.Terminal →
        run.status = old.status
  | .writeStationRun row =>
    match call.walk.current with
    | some place => place.Admits row
    | none => ∃ last status, call.stationRuns.getLast? = some last ∧
        call.outcome.bind ResumeOutcome.stationStatusTransition = some status ∧
          row = { last with status := status }
  | .hashWorkspace => call.outcome = none ∧ call.walk.current = none
  | .uuid => call.walk.ahead ≠ [] ∧ call.walk.recorded = true
  | .work id station => (∃ attempt, call.walk.current = some ⟨id, station, attempt⟩) ∧
      call.walk.executed ++ station :: call.walk.ahead = call.walk.plan
  | .review station => (∃ later, call.walk.ahead = station :: later) ∧
      call.walk.executed ++ call.walk.ahead = call.walk.plan
  | _ => True

def callProtocol (route : Route) : Protocol Op Reply Call := ⟨Call.Allows, Call.next route⟩

/-- The call before its first operation. Only a new run has its way before it. -/
def Call.start (route : Route) : Request → Call
  | .run _ => ⟨false, none, [], [], none, .from route.stations 1⟩
  | .resume _ => ⟨false, none, [], [], none, .from [] 1⟩

/-- The operations that move a call on its way. -/
def Op.Moves : Op → Prop
  | .writeStationRun _ | .hashWorkspace | .uuid | .work .. | .review _ => True
  | _ => False

variable {call : Call}

theorem Call.next_still {route : Route} {op : Op} (reply : Reply op) (still : ¬ op.Moves) :
    (call.next route op reply).walk = call.walk ∧ (call.next route op reply).outcome = call.outcome := by
  cases op with
  | writeStationRun | hashWorkspace | uuid | work | review => exact absurd trivial still
  | tryClaimRunLease =>
    cases reply
    · exact ⟨rfl, rfl⟩
    · exact ⟨rfl, rfl⟩
  | readRun => cases holds : call.holds <;> simp [Call.next, holds]
  | releaseRunLease | writeRun | readStationRuns | readEffects | markEffectApplied | writeDecision | writeLateResult
  | writeReceipt | isCancelled => exact ⟨rfl, rfl⟩

section parts
variable {α : Type} {route : Route} {call : Call} {run : Run}

/-- The call has the lease and knows that the run goes on. -/
structure Call.Open (call : Call) (run : Run) : Prop where
  holds : call.holds = true
  known : ∃ old, call.known = some (some old) ∧ ¬ old.status.Terminal
  running : ¬ run.status.Terminal

/-- The operations after which a call is what it was. -/
def Op.Idle : Op → Prop
  | .markEffectApplied _ | .writeDecision _ | .writeLateResult _ | .writeReceipt .. | .isCancelled
  | .releaseRunLease => True
  | _ => False

theorem conforms_idle {op : Op} {next : Reply op → Line α} {post : Call → α → Prop} (idle : op.Idle)
    (rest : ∀ reply, (next reply).Conforms (callProtocol route) post call) :
    (ask op >>= next).Conforms (callProtocol route) post call := by
  have same (reply : Reply op) : (callProtocol route).next call op reply = call := by
    cases op <;> first | rfl | cases idle
  refine .ask ?_ fun reply => ?_
  · cases op <;> trivial
  · rw [same]
    exact rest reply

/-- The state after a part that only writes the run record. -/
def Call.Linked (call : Call) (later : Call) (run : Run) : Prop := later.walk = call.walk ∧ later.Open run

theorem Call.Open.write (route : Route) {written : Run} (open_ : call.Open run)
    (same : written.status = run.status) :
    call.Allows (.writeRun written) ∧ call.Linked (call.next route (.writeRun written) ()) written := by
  obtain ⟨holds, ⟨old, known, going⟩, running⟩ := open_
  have goes : ¬ written.status.Terminal := same ▸ running
  refine ⟨⟨some old, known, fun other member terminal => ?_⟩, rfl, holds, ⟨written, rfl, goes⟩, goes⟩
  cases member
  exact absurd terminal going

theorem appendOnce_conforms {linked : List String} {link : List String → Run} {id : String}
    (open_ : call.Open run)
    (same : ∀ ids, (link ids).status = run.status) :
    (appendOnce linked link run id).Conforms (callProtocol route) call.Linked call := by
  unfold appendOnce
  split
  · exact ⟨rfl, open_⟩
  · obtain ⟨allowed, written⟩ := open_.write route (same (linked ++ [id]))
    exact .ask allowed fun _ => written

theorem appendEffects_conforms (ids : List String) (open_ : call.Open run) :
    (appendEffects run ids).Conforms (callProtocol route) call.Linked call := by
  induction ids generalizing run call with
  | nil => exact ⟨rfl, open_⟩
  | cons id ids ih =>
    refine .bind (Program.Conforms.mono (appendOnce_conforms open_ fun _ => rfl) ?_)
    rintro later run ⟨same, open_⟩
    exact (ih open_).mono fun last run ⟨again, open_⟩ => ⟨again.trans same, open_⟩

variable {status : RunStatus} {decision : Option Decision} {progress : Progress}

theorem finalizeRun_conforms (holds : call.holds = true) :
    (finalizeRun run status decision).Conforms (callProtocol route)
      (fun later final => later.known = some (some final)) call := by
  refine .ask trivial fun persisted => ?_
  have read : (callProtocol route).next call .readRun persisted =
      { call with known := some persisted } :=
    if_pos holds
  rw [read]
  split
  next finished found =>
    obtain ⟨rfl, -⟩ := Option.filter_eq_some_iff.mp found
    rfl
  next missing =>
    refine .ask ⟨persisted, rfl, fun old member terminal => ?_⟩ fun _ => rfl
    have kept : persisted.filter (fun run => run.status.Terminal) = some old :=
      Option.filter_eq_some_iff.mpr ⟨member, decide_eq_true terminal⟩
    rw [missing] at kept
    cases kept

theorem buildAndWriteReceipt_conforms (recorded : call.known = some (some run)) :
    (buildAndWriteReceipt run status).Conforms (callProtocol route) (fun _ _ => True) call := by
  refine conforms_idle trivial fun _ => .ask ⟨some run, recorded, ?_⟩ fun _ => trivial
  intro old member _
  cases member
  rfl

theorem issueReceipt_conforms {outcome : LineStatus × RunStatus} (recorded : call.known = some (some run)) :
    (issueReceipt run outcome).Conforms (callProtocol route) (fun _ _ => True) call := by
  unfold issueReceipt
  split
  · exact buildAndWriteReceipt_conforms recorded
  · exact buildAndWriteReceipt_conforms recorded
  · trivial

theorem recordDecision_conforms (open_ : call.Open run) :
    (recordDecision run decision).Conforms (callProtocol route) call.Linked call := by
  cases decision with
  | none => exact ⟨rfl, open_⟩
  | some decision => exact conforms_idle trivial fun _ => appendOnce_conforms open_ fun _ => rfl

theorem finalizeWithDelivery_conforms {package : DeliveryPackage}
    {review : Option ReviewerStationResult} (open_ : call.Open progress.run) :
    (finalizeWithDelivery progress package review).Conforms (callProtocol route) (fun _ _ => True) call := by
  refine .bind ((recordDecision_conforms open_).mono ?_)
  rintro later run ⟨-, open_⟩
  refine .bind ((finalizeRun_conforms open_.holds).mono fun later run recorded => ?_)
  exact .bind ((issueReceipt_conforms recorded).mono fun _ _ _ => trivial)

theorem closing_conforms {result : Run → α} (open_ : call.Open run) : (do
      let final ← finalizeRun run status decision
      return result final : Line α).Conforms (callProtocol route) (fun _ _ => True) call :=
  .bind ((finalizeRun_conforms open_.holds).mono fun _ _ _ => trivial)

structure Walk.Next (walk : Walk) (station : RouteStation) (later : List RouteStation)
    (attempt : Nat) : Prop where
  ahead : walk.ahead = station :: later
  ready : walk.executed ++ walk.ahead = walk.plan
  attempt : walk.attempt = attempt
  recorded : walk.recorded = true

variable {station : RouteStation} {later : List RouteStation} {attempt : Nat}

theorem Walk.Next.opens {walk : Walk} (next : walk.Next station later attempt) (id : String) :
    walk.opens id = walk.onto ⟨id, station, attempt⟩ later := by
  rw [Walk.opens, next.ahead, next.attempt]

/-- What a worker's station leaves of the walk. -/
structure Walk.Passed (walk : Walk) (station : RouteStation) (later : List RouteStation)
    (cancelled : Prop) (after : Walk) :
    Prop where
  ahead : after.ahead = later
  attempt : after.attempt = 1
  recorded : after.recorded = true
  ready : ¬ cancelled → after.executed ++ after.ahead = after.plan

theorem stationRun_conforms (next : call.walk.Next station later attempt)
    (worker : station.isReviewerStation = false) (open_ : call.Open run) :
    (stationRun station attempt).Conforms (callProtocol route) (fun after outcome => after.Open run ∧
      call.walk.Passed station later (outcome.stationRun.status = .cancelled) after.walk) call := by
  refine .ask ⟨by simp [next.ahead], next.recorded⟩ fun id => ?_
  change Program.Conforms _ _ _ { call with walk := call.walk.opens id }
  rw [next.opens]
  have admitted {status : StationRunStatus} {payload : Option Payload} : Place.Admits ⟨id, station, attempt⟩
      ⟨id, station.id, status, payload, stationResultSchemaVersion, attempt⟩ :=
    ⟨rfl, rfl, .inr (by simp [worker])⟩
  refine conforms_idle trivial fun cancelled => ?_
  dsimp only
  split
  · exact .ask admitted fun _ => ⟨⟨open_.holds, open_.known, open_.running⟩, rfl, rfl, rfl,
      fun kept => absurd rfl kept⟩
  · have going : call.walk.executed ++ station :: later = call.walk.plan := by rw [← next.ready, next.ahead]
    refine .ask admitted fun _ => .ask ⟨⟨attempt, rfl⟩, going⟩ fun work => ?_
    have open_ : Call.Open { call with walk := ((call.walk.onto ⟨id, station, attempt⟩ later).records.executes station).records }
        run := ⟨open_.holds, open_.known, open_.running⟩
    have ready : call.walk.executed ++ [station] ++ later = call.walk.plan := by
      rw [List.append_assoc, List.singleton_append, going]
    split
    · exact .ask admitted fun _ => ⟨open_, rfl, rfl, rfl, fun _ => ready⟩
    · exact .ask admitted fun _ => ⟨open_, rfl, rfl, rfl, fun _ => ready⟩
    · refine .ask admitted fun _ => ?_
      split
      · exact conforms_idle trivial fun _ => ⟨open_, rfl, rfl, rfl, fun _ => ready⟩
      · exact ⟨open_, rfl, rfl, rfl, fun _ => ready⟩

theorem runWorkerStation_conforms (next : call.walk.Next station later attempt)
    (worker : station.isReviewerStation = false) (open_ : call.Open run) :
    (runWorkerStation run station attempt).Conforms (callProtocol route)
    (fun after result => after.Open result.1 ∧
      call.walk.Passed station later (result.2.stationRun.status = .cancelled) after.walk) call := by
  refine .bind ((stationRun_conforms next worker open_).mono ?_)
  rintro first outcome ⟨open_, passed⟩
  refine .bind (Program.Conforms.mono (appendOnce_conforms open_ fun _ => rfl) ?_)
  rintro second run ⟨same, open_⟩
  refine .bind ((appendEffects_conforms outcome.effectIds open_).mono ?_)
  rintro third run ⟨again, open_⟩
  rw [← same, ← again] at passed
  cases outcome.lateResult with
  | none => exact ⟨open_, passed⟩
  | some late =>
    refine .bind (Program.Conforms.mono (appendOnce_conforms open_ fun _ => rfl) ?_)
    rintro last run ⟨same, open_⟩
    exact ⟨open_, same ▸ passed⟩

theorem runReviewerStation_conforms (next : call.walk.Next station later attempt)
    (reviewer : station.isReviewerStation = true) (open_ : call.Open run) :
    (runReviewerStation run station).Conforms (callProtocol route)
    (fun after result => after.Open result.1) call := by
  refine .ask ⟨⟨later, next.ahead⟩, next.ready⟩ fun review => ?_
  refine .ask ⟨by simp [callProtocol, Call.next, Walk.executes, next.ahead], next.recorded⟩ fun id => ?_
  have opened : (call.walk.executes station).opens id = (call.walk.executes station).onto ⟨id,
      station, attempt⟩ later := by
    rw [Walk.opens, Walk.executes]
    simp only [next.ahead, next.attempt]
  change Program.Conforms _ _ _ { call with walk := (call.walk.executes station).opens id }
  rw [opened]
  refine .ask ⟨rfl, rfl, .inr (by simp [reviewer])⟩ fun _ => ?_
  refine .bind (Program.Conforms.mono (appendOnce_conforms ?_ fun _ => rfl) ?_)
  · exact ⟨open_.holds, open_.known, open_.running⟩
  · rintro last run ⟨-, open_⟩
    exact open_

theorem markRemainingCancelled_conforms (stations : List RouteStation) (open_ : call.Open run)
    (ahead : stations <+: call.walk.ahead) (recorded : call.walk.recorded = true) :
    (markRemainingCancelled run stations).Conforms (callProtocol route)
    (fun after run => after.Open run) call := by
  induction stations generalizing run call with
  | nil => exact open_
  | cons station stations ih =>
    obtain ⟨rest, split⟩ := ahead
    have opened (id : String) :
        call.walk.opens id = call.walk.onto ⟨id, station, call.walk.attempt⟩ (stations ++ rest) := by
      rw [Walk.opens, ← split]
      rfl
    refine .ask ⟨by simp [← split], recorded⟩ fun id => ?_
    change Program.Conforms _ _ _ { call with walk := call.walk.opens id }
    rw [opened]
    refine .ask ⟨rfl, rfl, .inl rfl⟩ fun _ => ?_
    refine .bind (Program.Conforms.mono (appendOnce_conforms ?_ fun _ => rfl) ?_)
    · exact ⟨open_.holds, open_.known, open_.running⟩
    · rintro later run ⟨same, open_⟩
      exact ih open_ ⟨rest, by rw [same]; rfl⟩ (by rw [same]; rfl)

/-- What each visit says of the stations after it is what the walk has ahead. -/
def Tour : List Visit → Prop
  | [] => True
  | visit :: later => visit.remaining <+: visit.station :: later.map Visit.station ∧
      visit.following <+: later.map Visit.station ∧ Tour later

/-- The visits from an index that is not negative. -/
def onwards (stations : List RouteStation) (first : Nat) : List Visit :=
  (stations.zipIdx.drop first).map fun (station, index) =>
    ⟨station, stations.drop index, stations.drop (index + 1)⟩

theorem onwards_stations (stations : List RouteStation) (first : Nat) :
    (onwards stations first).map Visit.station = stations.drop first := by
  rw [onwards, List.map_map, List.map_drop]
  exact congrArg (List.drop first) (List.zipIdx_map_fst 0 stations)

theorem onwards_tour (stations : List RouteStation) (first : Nat) : Tour (onwards stations first) := by
  by_cases inside : first < stations.length
  · have split : onwards stations first =
        ⟨stations[first], stations.drop first, stations.drop (first + 1)⟩ ::
            onwards stations (first + 1) := by
      rw [onwards, List.drop_eq_getElem_cons (by simpa using inside), List.map_cons]
      simp [onwards]
    rw [split]
    refine ⟨?_, ?_, onwards_tour stations (first + 1)⟩
    · rw [onwards_stations]
      exact (List.drop_eq_getElem_cons inside).symm ▸ List.prefix_rfl
    · simp [onwards_stations]
  · rw [onwards, List.drop_eq_nil_of_le (by simpa using inside)]
    trivial
termination_by stations.length - first

theorem visits_eq (stations : List RouteStation) (start : Int) :
    visits stations start = if start < 0 then stations.getLast?.map fun last =>
      ⟨last, [last], stations⟩ :: onwards stations 0
      else some (onwards stations start.toNat) := rfl

theorem visits_tour {stations : List RouteStation} {start : Int} {plan : List Visit}
    (planned : visits stations start = some plan) : Tour plan := by
  rw [visits_eq] at planned
  split at planned
  · obtain ⟨last, _, rfl⟩ := Option.map_eq_some_iff.mp planned
    refine ⟨⟨stations, ?_⟩, ?_, onwards_tour stations 0⟩
    · rw [onwards_stations]
      rfl
    · simp [onwards_stations]
  · cases planned
    exact onwards_tour stations start.toNat

/-- The walk is about to begin with the first of these visits. -/
structure Walk.Ready (walk : Walk) (plan : List Visit) (attempt : Nat) : Prop where
  ahead : walk.ahead = plan.map Visit.station
  ready : walk.executed ++ walk.ahead = walk.plan
  attempt : walk.attempt = attempt
  recorded : walk.recorded = true

theorem walkStations_conforms {job : Job} (plan : List Visit) (tour : Tour plan)
    (open_ : call.Open progress.run) (ready : call.walk.Ready plan attempt) :
    (walkStations job progress attempt plan).Conforms (callProtocol route) (fun _ _ => True) call := by
  induction plan generalizing progress attempt call with
  | nil => exact finalizeWithDelivery_conforms open_
  | cons visit later ih =>
    obtain ⟨remaining, following, tour⟩ := tour
    have next : call.walk.Next visit.station (later.map Visit.station) attempt :=
      ⟨ready.ahead, ready.ready, ready.attempt, ready.recorded⟩
    refine conforms_idle trivial fun cancelled => ?_
    split
    · refine .bind ((markRemainingCancelled_conforms visit.remaining open_ ?_ ready.recorded).mono fun _ _ open_ => ?_)
      · rw [ready.ahead]
        exact remaining
      · exact closing_conforms open_
    · split
      next reviewer =>
        refine .bind ((runReviewerStation_conforms next reviewer open_).mono ?_)
        rintro after ⟨run, review, row⟩ open_
        exact finalizeWithDelivery_conforms open_
      next worker =>
        refine .bind ((runWorkerStation_conforms next (Bool.eq_false_iff.mpr worker) open_).mono ?_)
        rintro after ⟨run, outcome⟩ ⟨open_, passed⟩
        dsimp only
        split
        · refine .bind ((markRemainingCancelled_conforms visit.following open_ ?_ passed.recorded).mono fun _ _ open_ => ?_)
          · rw [passed.ahead]
            exact following
          · exact closing_conforms open_
        next uncancelled =>
          split
          · exact conforms_idle trivial fun _ => closing_conforms open_
          · split
            · exact closing_conforms open_
            · exact ih tour open_ ⟨passed.ahead, passed.ready uncancelled, passed.attempt, passed.recorded⟩

theorem walkFrom_conforms {job : Job} {start : Int} (open_ : call.Open progress.run)
    (walk : call.walk = .from (stationsFrom job.route start) attempt) :
    (walkFrom job progress start attempt).Conforms (callProtocol route) (fun _ _ => True) call := by
  unfold walkFrom
  split
  · trivial
  next plan planned =>
    refine .bind ((walkStations_conforms plan (visits_tour planned) open_ ?_).mono fun _ _ _ => trivial)
    have stations : stationsFrom job.route start = plan.map Visit.station := by
      rw [stationsFrom, planned]; rfl
    rw [walk, stations]
    exact ⟨rfl, rfl, rfl, rfl⟩

theorem promoteEffects_conforms (ids : List String) :
    (promoteEffects ids).Conforms (callProtocol route) (fun later _ => later = call) call := by
  induction ids with
  | nil => rfl
  | cons id ids ih => exact conforms_idle trivial fun _ => ih

theorem readEffectsForLast_conforms (stationRuns : List StationRun) (unread : call.effects = []) :
    (readEffectsForLast stationRuns).Conforms (callProtocol route)
      (fun later effects => later = { call with effects := effects }) call := by
  unfold readEffectsForLast
  split
  · exact ⟨trivial, fun effects => rfl⟩
  · change call = { call with effects := [] }
    rw [← unread]

theorem transitionStation_conforms {stationRuns : List StationRun} {outcome : ResumeOutcome}
    (read : call.stationRuns = stationRuns) (reconciled : call.outcome = some outcome)
    (closed : call.walk.current = none)
    (recorded : call.walk.recorded = true) :
    (transitionStation stationRuns outcome).Conforms (callProtocol route)
    (fun later _ => later = call) call := by
  unfold transitionStation
  split
  next last status found moves =>
    refine ⟨?_, fun _ => ?_⟩
    · simp only [callProtocol, Call.Allows, closed]
      exact ⟨last, status, by rw [read, found], by rw [reconciled]; exact moves, rfl⟩
    · change { call with walk := { call.walk with recorded := true } } = call
      rw [← recorded]
  next => rfl

theorem release_conforms {value : α} :
    (do
      ask .releaseRunLease
      return value : Line α).Conforms (callProtocol route) (fun _ _ => True) call :=
  conforms_idle trivial fun _ => trivial

end parts

theorem run_conforms (job : Job) :
    (FulfillmentLine.run job).Conforms (callProtocol job.route) (fun _ _ => True)
    (.start job.route (.run job.manifest)) := by
  unfold FulfillmentLine.run
  refine .ask trivial fun claimed => ?_
  split
  · trivial
  next granted =>
    obtain rfl : claimed = true := Bool.not_eq_false _ ▸ granted
    refine .ask trivial fun existing => ?_
    split
    · exact release_conforms
    next missing =>
      refine .ask ⟨existing, rfl, fun old member terminal => ?_⟩ fun _ => ?_
      · have kept : existing.filter (fun run => run.status.Terminal) = some old :=
          Option.filter_eq_some_iff.mpr ⟨member, decide_eq_true terminal⟩
        rw [missing] at kept
        cases kept
      · have going : ¬ RunStatus.running.Terminal := by decide
        refine .bind ((walkFrom_conforms ⟨rfl, ⟨_, rfl, going⟩, going⟩ ?_).mono fun _ _ _ => release_conforms)
        have all : stationsFrom job.route 0 = job.route.stations := onwards_stations job.route.stations 0
        rw [all]
        rfl

theorem followOutcome_conforms {job : Job} {run : Run} {stationRuns : List StationRun}
    {outcome : ResumeOutcome} (open_ : call.Open run)
    (walk : call.walk = .from (stationsFrom job.route (resumeStartIndex job.route stationRuns outcome)) outcome.firstAttempt) :
    (followOutcome job run stationRuns outcome).Conforms (callProtocol job.route) (fun _ _ => True) call := by
  unfold followOutcome
  split
  · exact conforms_idle trivial fun _ => closing_conforms open_
  · refine .bind ((promoteEffects_conforms outcome.promoteEffectIds).mono fun later _ same => ?_)
    subst same
    exact walkFrom_conforms open_ walk

theorem resumeRun_conforms {job : Job} {run : Run} (open_ : call.Open run)
    (unread : call.effects = []) (unplanned : call.outcome = none)
    (closed : call.walk.current = none) :
    (resumeRun job run).Conforms (callProtocol job.route) (fun _ _ => True) call := by
  refine .ask trivial fun stationRuns => ?_
  refine .bind (Program.Conforms.mono (readEffectsForLast_conforms stationRuns ?_) fun later effects same => ?_)
  · exact unread
  subst same
  refine .ask ⟨unplanned, closed⟩ fun workspace => ?_
  refine .bind (Program.Conforms.mono (transitionStation_conforms ?_ ?_ ?_ ?_) fun later _ same => ?_)
  · rfl
  · rfl
  · rfl
  · rfl
  subst same
  exact followOutcome_conforms ⟨open_.holds, open_.known, open_.running⟩ rfl

theorem resume_conforms (job : Job) :
    (FulfillmentLine.resume job).Conforms (callProtocol job.route) (fun _ _ => True)
      (.start job.route (.resume job.manifest)) := by
  unfold FulfillmentLine.resume
  refine .ask trivial fun first => ?_
  split
  · trivial
  · split
    · trivial
    · refine .ask trivial fun claimed => ?_
      split
      · trivial
      next granted =>
        obtain rfl : claimed = true := Bool.not_eq_false _ ▸ granted
        refine .ask trivial fun again => ?_
        split
        · exact release_conforms
        next run =>
          split
          · exact release_conforms
          next going =>
            refine .bind (Program.Conforms.mono (resumeRun_conforms ?_ ?_ ?_ ?_) fun _ _ _ =>
              release_conforms)
            · exact ⟨rfl, ⟨run, rfl, going⟩, going⟩
            · rfl
            · rfl
            · rfl

theorem request_conforms (runId : String) (route : Route) (request : Request) :
    (request.program runId route).Conforms (callProtocol route) (fun _ _ => True) (.start route request) := by
  cases request with
  | run manifest => exact run_conforms ⟨runId, route, manifest⟩
  | resume manifest => exact resume_conforms ⟨runId, route, manifest⟩

end TokenPak.Dispatch
