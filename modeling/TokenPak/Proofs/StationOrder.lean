import TokenPak.Proofs.CallProtocol
import TokenPak.Proofs.DeliveryReview

/-! The stations that a call executes, in their order. A new run takes the route
from its first station; a resume looks the recorded station up by its name and goes
on from there. Of two stations of one name the first is found, and a name that the
route does not have is looked up as −1, an index like any other to the walk. -/

namespace TokenPak.Dispatch
open Library

def Op.executes : Op → List RouteStation
  | .work _ station => [station]
  | .review station => [station]
  | _ => []

/-- The files are as given whenever they are hashed. -/
def Seen (workspace : Workspace) : (op : Op) → Reply op → Prop
  | .hashWorkspace, seen => seen = workspace
  | _, _ => True

def Ledger.AnswersIn (workspace : Workspace) (ledger : Ledger) (op : Op) (reply : Reply op)
    (after : Ledger) : Prop :=
  ledger.Answers op reply after ∧ Seen workspace op reply

/-- The ledger with the stations that were executed. -/
abbrev Ledger.Logs (workspace : Workspace) := Program.Noted (Ledger.AnswersIn workspace) Op.executes

def ResumeOutcome.Continues (outcome : ResumeOutcome) : Prop :=
  outcome.action = .continueNextStation ∨ outcome.action = .promoteAndContinue

/-- The walk sets out from the place of the interrupted station, or from the one
behind it, and the executed stations are a segment of the route from there. -/
def InOrder (route : Route) (outcome : ResumeOutcome) (recorded : Option String) (place : Nat)
    (first : Int) (executed : List RouteStation) : Prop :=
  executed = [] ∨ ∃ start : Nat, first = start ∧ executed <+: route.stations.drop start ∧
    match recorded with
    | none => start = 0
    | some id => (route.stations[place]?).map RouteStation.id = some id ∧
        (outcome.Continues → start = place + 1) ∧ (¬ outcome.Continues → start = place)

def Ledger.recorded (ledger : Ledger) : Option String := ledger.stationRuns.getLast?.map StationRun.stationId

/-- Every call executes its stations in the order of the route, wherever it stops.
The recorded station was interrupted at the given place of the route; rows carry
its name only. -/
structure WalksInOrder (route : Route) (recorded : Option String) (place : Nat) : Prop where
  run : ∀ runId manifest workspace ledger after executed,
    Program.Stops (Ledger.Logs workspace) ((Request.run manifest).program runId route) (ledger, [])
      (after, executed) →
      executed <+: route.stations
  resume : ∀ runId manifest workspace ledger after executed, ledger.recorded = recorded →
    Program.Stops (Ledger.Logs workspace) ((Request.resume manifest).program runId route)
      (ledger, []) (after, executed) →
      InOrder route (ledger.reconciled workspace) recorded place
        (resumeStartIndex route ledger.stationRuns (ledger.reconciled workspace)) executed

section walking
variable {workspace : Workspace} {ledger : Ledger} {log : List RouteStation}

/-- The log of a call that has set out for these stations. -/
structure Call.Logged (plan : List RouteStation) (call : Call)
    (world : Ledger × List RouteStation) : Prop where
  planned : call.outcome ≠ none
  plan : call.walk.plan = plan
  executed : world.2 = call.walk.executed
  ordered : call.walk.executed <+: call.walk.plan

theorem Walk.opens_frame (walk : Walk) (id : String) :
    (walk.opens id).plan = walk.plan ∧ (walk.opens id).executed = walk.executed := by
  unfold Walk.opens
  split <;> exact ⟨rfl, rfl⟩

theorem Call.Logged.step {plan : List RouteStation} {route : Route} (call : Call)
    (world : Ledger × List RouteStation)
    (op : Op) (reply : Reply op) (after : Ledger × List RouteStation) (logged : call.Logged plan world)
    (allowed : call.Allows op) (noted : Ledger.Logs workspace world op reply after) :
    (call.next route op reply).Logged plan after := by
  obtain ⟨planned, same, executed, ordered⟩ := logged
  have quiet (outcome : (call.next route op reply).outcome = call.outcome)
      (samePlan : (call.next route op reply).walk.plan = call.walk.plan)
      (sameExecuted : (call.next route op reply).walk.executed = call.walk.executed)
        (silent : op.executes = []) :
      (call.next route op reply).Logged plan after := by
    refine ⟨outcome ▸ planned, samePlan.trans same, ?_, samePlan ▸ sameExecuted ▸ ordered⟩
    rw [noted.2, silent, List.append_nil, executed, sameExecuted]
  have runs {station : RouteStation} {later : List RouteStation}
    (outcome : (call.next route op reply).outcome = call.outcome)
      (walk : (call.next route op reply).walk = call.walk.executes station)
        (executes : op.executes = [station])
      (going : call.walk.executed ++
          station :: later = call.walk.plan) : (call.next route op reply).Logged plan after := by
    refine ⟨outcome ▸ planned, by rw [walk]; exact same, ?_, ?_⟩
    · rw [noted.2, executes, executed, walk]
      rfl
    · rw [walk]
      refine ⟨later, ?_⟩
      rw [Walk.executes, List.append_assoc]
      exact going
  cases op with
  | work id station => exact runs rfl rfl rfl allowed.2
  | review station =>
    obtain ⟨⟨later, ahead⟩, going⟩ := allowed
    exact runs rfl rfl rfl (ahead ▸ going)
  | uuid => exact quiet rfl (Walk.opens_frame call.walk reply).1 (Walk.opens_frame call.walk reply).2 rfl
  | hashWorkspace => exact absurd allowed.1 planned
  | writeStationRun row => exact quiet rfl rfl rfl rfl
  | tryClaimRunLease | readRun | releaseRunLease | writeRun | readStationRuns | readEffects | markEffectApplied
  | writeDecision | writeLateResult | writeReceipt | isCancelled =>
    obtain ⟨walk, outcome⟩ := Call.next_still reply id
    exact quiet outcome (by rw [walk]) (by rw [walk]) rfl

/-- A walk executes a segment of the stations it set out for. -/
theorem walkFrom_logs {job : Job} {progress : Progress} {start : Int} {attempt : Nat}
    (going : ¬ progress.run.status.Terminal) :
    (walkFrom job progress start attempt).Sustains (Ledger.Logs workspace)
      (fun world => world.2 <+: stationsFrom job.route start) (fun _ _ => True) (ledger, []) := by
  let plan := stationsFrom job.route start
  let call : Call :=
    ⟨true, some (some progress.run), [], [], some (reconcileRun [] [] workspace),
      .from plan attempt⟩
  have conforms : (walkFrom job progress start attempt).Conforms (callProtocol job.route)
      (fun _ _ => True) call :=
    walkFrom_conforms ⟨rfl, ⟨progress.run, rfl, going⟩, going⟩ rfl
  have logged : call.Logged plan (ledger, []) := ⟨Option.some_ne_none _, rfl, rfl, List.nil_prefix⟩
  refine ((conforms.sustains (Call.Logged plan) logged Call.Logged.step).mono fun _ _ _ _ =>
    trivial).weaken ?_
  rintro world ⟨call, -, same, executed, ordered⟩
  have same : call.walk.plan = stationsFrom job.route start := same
  rw [executed, ← same]
  exact ordered

end walking

section calls
variable {α : Type} {workspace : Workspace} {ledger : Ledger} {crash : Ledger × List RouteStation → Prop}
  {post : Ledger × List RouteStation → α → Prop}

theorem logs_ask {op : Op} {next : Reply op → Line α} (silent : op.executes = []) (safe : crash (ledger, []))
    (rest : ∀ reply after, ledger.AnswersIn workspace op reply after →
      (next reply).Sustains (Ledger.Logs workspace) crash post (after, [])) :
    (ask op >>= next).Sustains (Ledger.Logs workspace) crash post (ledger, []) := by
  refine .ask safe fun reply after noted => ?_
  obtain ⟨after, log⟩ := after
  obtain ⟨answered, logged⟩ := noted
  rw [silent, List.append_nil] at logged
  obtain rfl : log = [] := logged
  exact rest reply after answered

theorem readEffectsForLast_logs (safe : crash (ledger, [])) :
    (readEffectsForLast ledger.stationRuns).Sustains (Ledger.Logs workspace) crash
      (fun world effects => world = (ledger, []) ∧ effects = ledger.lastEffects) (ledger, []) := by
  unfold readEffectsForLast Ledger.lastEffects
  split
  next last found =>
    refine logs_ask rfl safe fun effects after read => ?_
    obtain ⟨rfl, rfl⟩ := read.1
    exact .pure safe ⟨rfl, by rw [found]; rfl⟩
  next missing => exact .pure safe ⟨rfl, by rw [missing]; rfl⟩

theorem transitionStation_logs {stationRuns : List StationRun} {outcome : ResumeOutcome}
    (safe : ∀ ledger, crash (ledger, [])) :
    (transitionStation stationRuns outcome).Sustains (Ledger.Logs workspace) crash (fun world _ =>
      world.2 = [])
      (ledger, []) := by
  unfold transitionStation
  split
  · exact logs_ask rfl (safe _) fun _ after _ => .pure (safe after) rfl
  · exact .pure (safe _) rfl

theorem promoteEffects_logs (ids : List String) (safe : ∀ ledger, crash (ledger, [])) :
    (promoteEffects ids).Sustains (Ledger.Logs workspace) crash (fun world _ => world.2 = [])
    (ledger, []) := by
  induction ids generalizing ledger with
  | nil => exact .pure (safe _) rfl
  | cons id ids ih => exact logs_ask rfl (safe _) fun _ _ _ => ih

theorem finalizeRun_logs {run : Run} {status : RunStatus} {decision : Option Decision}
    (safe : ∀ ledger, crash (ledger, [])) :
    (finalizeRun run status decision).Sustains (Ledger.Logs workspace) crash (fun world _ =>
      world.2 = []) (ledger, []) := by
  refine logs_ask rfl (safe _) fun persisted after _ => ?_
  split
  · exact .pure (safe _) rfl
  · exact logs_ask rfl (safe _) fun _ after _ => .pure (safe _) rfl

theorem followOutcome_logs {job : Job} {run : Run} {stationRuns : List StationRun} {outcome : ResumeOutcome}
    (going : ¬ run.status.Terminal) (safe : ∀ ledger, crash (ledger, []))
    (walked : ∀ world : Ledger × List RouteStation,
      world.2 <+: stationsFrom job.route (resumeStartIndex job.route stationRuns outcome) → crash world) :
    (followOutcome job run stationRuns outcome).Sustains (Ledger.Logs workspace) crash (fun _ _ =>
      True) (ledger, []) := by
  unfold followOutcome
  split
  · refine logs_ask rfl (safe _) fun _ after _ => .bind ((finalizeRun_logs safe).mono ?_)
    intro world _ kept _
    exact .pure kept trivial
  · refine .bind ((promoteEffects_logs outcome.promoteEffectIds safe).mono ?_)
    rintro ⟨after, log⟩ _ - (rfl : log = [])
    exact (walkFrom_logs going).weaken walked

theorem run_logs (workspace : Workspace) (ledger : Ledger) (job : Job) :
    (FulfillmentLine.run job).Sustains (Ledger.Logs workspace)
    (fun world => world.2 <+: job.route.stations) (fun _ _ => True)
      (ledger, []) := by
  have release {world : Ledger × List RouteStation} {value : Except LineError FulfillmentResult}
      (safe : world.2 <+: job.route.stations) : (do
        ask .releaseRunLease
        return value : Line _).Sustains (Ledger.Logs workspace) (fun world => world.2 <+: job.route.stations)
        (fun _ _ => True) world := by
    refine .ask safe fun _ after released => .pure ?_ trivial
    rw [released.2]
    simpa [Op.executes] using safe
  have nothing : ([] : List RouteStation) <+: job.route.stations := List.nil_prefix
  have going : ¬ RunStatus.running.Terminal := by decide
  unfold FulfillmentLine.run
  refine logs_ask rfl nothing fun claimed after _ => ?_
  split
  · exact .pure nothing trivial
  · refine logs_ask rfl nothing fun existing after _ => ?_
    split
    · exact release nothing
    · refine logs_ask rfl nothing fun _ after _ => ?_
      have all : stationsFrom job.route 0 = job.route.stations := onwards_stations job.route.stations 0
      refine .bind (((walkFrom_logs going).weaken ?_).mono fun _ _ safe _ => release safe)
      intro world walked
      rwa [all] at walked

theorem resumeRun_logs {job : Job} {run : Run} (going : ¬ run.status.Terminal)
    (safe : ∀ ledger, crash (ledger, []))
    (walked : ∀ world : Ledger × List RouteStation,
      world.2 <+: stationsFrom job.route (resumeStartIndex job.route ledger.stationRuns (ledger.reconciled workspace)) →
        crash world) :
    (resumeRun job run).Sustains (Ledger.Logs workspace) crash (fun _ _ => True) (ledger, []) := by
  refine logs_ask rfl (safe _) fun stationRuns after read => ?_
  obtain ⟨rfl, rfl⟩ : stationRuns = ledger.stationRuns ∧ ledger = after := ⟨read.1.1, read.1.2.symm⟩
  refine .bind ((readEffectsForLast_logs (safe _)).mono ?_)
  rintro _ effects - ⟨rfl, rfl⟩
  refine logs_ask rfl (safe _) fun seen later hashed => ?_
  obtain ⟨rfl, rfl⟩ : ledger = later ∧ seen = workspace := ⟨hashed.1.symm, hashed.2⟩
  refine .bind ((transitionStation_logs safe).mono ?_)
  rintro ⟨marked, log⟩ _ - (rfl : log = [])
  exact followOutcome_logs going safe walked

theorem resume_logs (job : Job) (safe : ∀ ledger, crash (ledger, []))
    (walked : ∀ world : Ledger × List RouteStation,
      world.2 <+: stationsFrom job.route (resumeStartIndex job.route ledger.stationRuns (ledger.reconciled workspace)) →
        crash world)
    (kept : ∀ before after : Ledger × List RouteStation, after.2 = before.2 → crash before → crash after) :
    (FulfillmentLine.resume job).Sustains (Ledger.Logs workspace) crash (fun _ _ => True) (ledger, []) := by
  have release {world : Ledger × List RouteStation} {value : Except LineError FulfillmentResult}
      (here : crash world) : (do
        ask .releaseRunLease
        return value : Line _).Sustains (Ledger.Logs workspace) crash (fun _ _ => True) world := by
    refine .ask here fun _ after released => .pure (kept world after ?_ here) trivial
    rw [released.2]
    exact List.append_nil _
  unfold FulfillmentLine.resume
  refine logs_ask rfl (safe _) fun first after read => ?_
  obtain ⟨-, rfl⟩ : first = ledger.run ∧ after = ledger := read.1
  split
  · exact .pure (safe _) trivial
  · split
    · exact .pure (safe _) trivial
    · refine logs_ask rfl (safe _) fun claimed after asked => ?_
      obtain rfl : after = _ := asked.1
      split
      · exact .pure (safe _) trivial
      · refine logs_ask rfl (safe _) fun again after read => ?_
        obtain ⟨-, rfl⟩ := read.1
        split
        · exact release (safe _)
        next run =>
          split
          · exact release (safe _)
          next going => exact .bind ((resumeRun_logs going safe walked).mono fun _ _ here _ => release here)

end calls

/-! Where a resume starts. -/

variable {route : Route} {id : String}

theorem stationIndex_found (found : id ∈ route.stations.map RouteStation.id) :
    ∃ position : Nat, stationIndex route id = position ∧
      (route.stations[position]?).map RouteStation.id = some id := by
  obtain ⟨station, member, named⟩ := List.mem_map.mp found
  obtain ⟨position, first⟩ : ∃ position, route.stations.findIdx? (·.id = id) = some position := by
    rw [← Option.isSome_iff_exists, List.findIdx?_isSome, List.any_eq_true]
    exact ⟨station, member, decide_eq_true named⟩
  refine ⟨position, by rw [stationIndex, first], ?_⟩
  obtain ⟨inside, named, -⟩ := List.findIdx?_eq_some_iff_getElem.mp first
  rw [List.getElem?_eq_getElem inside]
  exact congrArg some (of_decide_eq_true named)

theorem stationIndex_missing (missing : id ∉ route.stations.map RouteStation.id) :
    stationIndex route id = -1 := by
  have unfound : route.stations.findIdx? (·.id = id) = none := by
    rw [List.findIdx?_eq_none_iff]
    exact fun station member => decide_eq_false fun named =>
      missing (List.mem_map.mpr ⟨station, member, named⟩)
  rw [stationIndex, unfound]

theorem stationsFrom_nat (route : Route) (first : Nat) :
    stationsFrom route first = route.stations.drop first :=
  onwards_stations route.stations first

theorem resumeStartIndex_recorded (route : Route) (outcome : ResumeOutcome) {ledger : Ledger}
    (recorded : ledger.recorded = some id) :
    (outcome.Continues → resumeStartIndex route ledger.stationRuns outcome = stationIndex route id + 1) ∧
      (¬ outcome.Continues → resumeStartIndex route ledger.stationRuns outcome = stationIndex route id) := by
  obtain ⟨last, found, rfl⟩ := Option.map_eq_some_iff.mp recorded
  unfold resumeStartIndex
  rw [found]
  exact ⟨fun continues => if_pos continues, fun stays => if_neg stays⟩

/-- The recorded station stands at the place, and none of its name before. -/
def Retraceable (route : Route) (recorded : Option String) (place : Nat) : Prop :=
  ∀ id, recorded = some id → route.stations = [] ∨
    (route.stations[place]?).map RouteStation.id = some id ∧
      ∀ earlier < place, (route.stations[earlier]?).map RouteStation.id ≠ some id

theorem stationIndex_eq {place : Nat} :
    stationIndex route id = place ↔ (route.stations[place]?).map RouteStation.id = some id ∧
      ∀ earlier < place, (route.stations[earlier]?).map RouteStation.id ≠ some id := by
  have index : stationIndex route id = place ↔ route.stations.findIdx? (·.id = id) = some place := by
    unfold stationIndex
    split
    next found => rw [found, Int.ofNat_inj, Option.some.injEq]
    next missing => simp [missing]
  rw [index, List.findIdx?_eq_some_iff_getElem]
  constructor
  · rintro ⟨inside, named, before⟩
    rw [List.getElem?_eq_getElem inside]
    refine ⟨congrArg some (of_decide_eq_true named), fun earlier first same => ?_⟩
    rw [List.getElem?_eq_getElem (Nat.lt_trans first inside)] at same
    exact before earlier first (decide_eq_true (Option.some.inj same))
  · rintro ⟨named, before⟩
    obtain ⟨station, found, same⟩ := Option.map_eq_some_iff.mp named
    obtain ⟨inside, rfl⟩ := List.getElem?_eq_some_iff.mp found
    refine ⟨inside, decide_eq_true same, fun earlier first again => before earlier first ?_⟩
    rw [List.getElem?_eq_getElem (Nat.lt_trans first inside)]
    exact congrArg some (of_decide_eq_true again)

theorem inOrder_of_found {ledger : Ledger} {outcome : ResumeOutcome} {place : Nat}
    {executed : List RouteStation} (known : Retraceable route ledger.recorded place)
    (walked : executed <+: stationsFrom route (resumeStartIndex route ledger.stationRuns outcome)) :
    InOrder route outcome ledger.recorded place
      (resumeStartIndex route ledger.stationRuns outcome) executed := by
  cases recorded : ledger.recorded with
  | none =>
    have fresh : ledger.stationRuns.getLast? = none := Option.map_eq_none_iff.mp recorded
    have start : resumeStartIndex route ledger.stationRuns outcome = (0 : Nat) := by
      rw [resumeStartIndex, fresh]; rfl
    rw [start, stationsFrom_nat] at walked
    exact .inr ⟨0, start, walked, rfl⟩
  | some id =>
    obtain ⟨continues, stays⟩ := resumeStartIndex_recorded route outcome recorded
    obtain empty | here := known id recorded
    · have nowhere (start : Int) : stationsFrom route start = [] := by
        rw [stationsFrom, visits_eq, empty]
        split
        · rfl
        · exact (onwards_stations [] start.toNat).trans List.drop_nil
      rw [nowhere] at walked
      exact .inl (List.prefix_nil.mp walked)
    · have index : stationIndex route id = place := stationIndex_eq.mpr here
      by_cases goesOn : outcome.Continues
      · have start : resumeStartIndex route ledger.stationRuns outcome = ((place + 1 : Nat) : Int) := by
          rw [continues goesOn, index]
          rfl
        rw [start, stationsFrom_nat] at walked
        exact .inr ⟨place + 1, start, walked, here.1, fun _ => rfl, fun stays => absurd goesOn stays⟩
      · have start : resumeStartIndex route ledger.stationRuns outcome = place := by
          rw [stays goesOn, index]
        rw [start, stationsFrom_nat] at walked
        exact .inr ⟨place, start, walked, here.1, fun continues => absurd continues goesOn, fun _ => rfl⟩

section straying
variable {workspace : Workspace} {ledger after : Ledger} {log : List RouteStation}

theorem Ledger.logs_silent {op : Op} {reply : Reply op} (silent : op.executes = [])
    (answered : ledger.AnswersIn workspace op reply after) :
    Ledger.Logs workspace (ledger, log) op reply (after, log) :=
  ⟨answered, by rw [silent, List.append_nil]⟩

theorem walkStations_executes (workspace : Workspace) (job : Job) (progress : Progress)
    (attempt : Nat) (visit : Visit)
    (later : List Visit) (fresh : ∃ id, ∀ row ∈ ledger.stationRuns, row.id ≠ id) :
    ∃ after, Program.Stops (Ledger.Logs workspace)
    (walkStations job progress attempt (visit :: later)) (ledger, [])
      (after, [visit.station]) := by
  obtain ⟨id, fresh⟩ := fresh
  have uncancelled (ledger : Ledger) : Ledger.Logs workspace (ledger, []) .isCancelled false (ledger, []) :=
    Ledger.logs_silent rfl ⟨rfl, trivial⟩
  unfold walkStations
  by_cases reviewer : visit.station.isReviewerStation
  · have reviewed : Ledger.Logs workspace (ledger, []) (.review visit.station) (.forStatus .pass)
        (ledger, [visit.station]) :=
      ⟨⟨rfl, trivial⟩, rfl⟩
    refine ⟨ledger, .ask (uncancelled ledger) ?_⟩
    rw [if_neg Bool.false_ne_true, if_pos reviewer]
    exact .first (.ask reviewed .here)
  · let row : StationRun := ⟨id, visit.station.id, .running, none, stationResultSchemaVersion, attempt⟩
    let started := { ledger with stationRuns := Ledger.replaceStationRun row ledger.stationRuns }
    have drawn : Ledger.Logs workspace (ledger, []) .uuid id (ledger, []) :=
      Ledger.logs_silent rfl ⟨⟨fresh, rfl⟩, trivial⟩
    have written : Ledger.Logs workspace (ledger, []) (.writeStationRun row) () (started, []) :=
      Ledger.logs_silent rfl ⟨rfl, trivial⟩
    have worked : Ledger.Logs workspace (started, []) (.work id visit.station) ⟨.failed false, []⟩
        (started, [visit.station]) := ⟨⟨⟨started.effects, rfl⟩, trivial⟩, rfl⟩
    refine ⟨started, .ask (uncancelled ledger) ?_⟩
    rw [if_neg Bool.false_ne_true, if_neg reviewer]
    refine .first (.first (.ask drawn (.ask (uncancelled ledger) ?_)))
    exact .ask written (.ask worked .here)

def failedAt (id : String) : Ledger :=
  ⟨some ⟨"run_1", .running, [], [], [], [], none⟩,
    [⟨"stationrun_1", id, .failed, none, stationResultSchemaVersion, 1⟩],
    [], [], [], []⟩

theorem visits_inhabited {stations : List RouteStation} {start : Int} (inhabited : stations ≠ [])
    (inside : start < stations.length) :
    ∃ visit later, visits stations start = some (visit :: later) := by
  rw [visits_eq]
  split
  · exact ⟨_, _, by rw [List.getLast?_eq_some_getLast inhabited]; rfl⟩
  · have some_left : (onwards stations start.toNat).map Visit.station ≠ [] := by
      rw [onwards_stations]
      exact fun none => absurd (List.drop_eq_nil_iff.mp none) (by omega)
    obtain ⟨visit, later, ahead⟩ :=
      List.exists_cons_of_ne_nil fun none : onwards stations start.toNat = [] => some_left (by rw [none]; rfl)
    exact ⟨visit, later, congrArg some ahead⟩

theorem stationIndex_lt {route : Route} {id : String} : stationIndex route id < route.stations.length := by
  unfold stationIndex
  split
  next found => exact Int.ofNat_lt.mpr (List.findIdx?_eq_some_iff_getElem.mp found).1
  next => omega

/-- A resume behind a failed station executes a station, wherever the lookup of the
recorded one has led. -/
theorem resume_executes {route : Route} (id : String) (inhabited : route.stations ≠ [])
    (manifest : Manifest) (workspace : Workspace) :
    ∃ after station, Program.Stops (Ledger.Logs workspace)
      ((Request.resume manifest).program "run_1" route) (failedAt id, []) (after, [station]) := by
  let run : Run := ⟨"run_1", .running, [], [], [], [], none⟩
  let row : StationRun := ⟨"stationrun_1", id, .failed, none, stationResultSchemaVersion, 1⟩
  let marked : Ledger := { failedAt id with stationRuns := [{ row with status := .failedInterrupted }] }
  let job : Job := ⟨"run_1", route, manifest⟩
  have inside : stationIndex route id < route.stations.length := stationIndex_lt
  obtain ⟨visit, later, start⟩ := visits_inhabited inhabited inside
  have fresh : ∃ id, ∀ row ∈ marked.stationRuns, row.id ≠ id := ⟨"stationrun_2", by simp [marked, row]⟩
  obtain ⟨after, executed⟩ := walkStations_executes workspace job ⟨run, [row], [], []⟩ 2 visit later fresh
  have read : Ledger.Logs workspace (failedAt id, []) .readRun (some run) (failedAt id, []) :=
    Ledger.logs_silent rfl ⟨⟨rfl, rfl⟩, trivial⟩
  have claimed : Ledger.Logs workspace (failedAt id, []) .tryClaimRunLease true (failedAt id, []) :=
    Ledger.logs_silent rfl ⟨rfl, trivial⟩
  have rows : Ledger.Logs workspace (failedAt id, []) .readStationRuns [row] (failedAt id, []) :=
    Ledger.logs_silent rfl ⟨⟨rfl, rfl⟩, trivial⟩
  have effects : Ledger.Logs workspace (failedAt id, []) (.readEffects "stationrun_1") [] (failedAt id, []) :=
    Ledger.logs_silent rfl ⟨⟨rfl, rfl⟩, trivial⟩
  have hashed : Ledger.Logs workspace (failedAt id, []) .hashWorkspace workspace (failedAt id, []) :=
    Ledger.logs_silent rfl ⟨rfl, rfl⟩
  have written : Ledger.Logs workspace (failedAt id, [])
    (.writeStationRun { row with status := .failedInterrupted }) ()
      (marked, []) := Ledger.logs_silent rfl ⟨rfl, trivial⟩
  refine ⟨after, visit.station, ?_⟩
  change Program.Stops _ (FulfillmentLine.resume job) _ _
  refine .ask read (.ask claimed (.ask read (.first (.ask rows (.ask effects (.ask hashed (.ask written ?_)))))))
  change Program.Stops _ (walkFrom job ⟨run, [row], [], []⟩ (stationIndex route id) 2) _ _
  unfold walkFrom
  rw [start]
  exact .first executed

end straying

/-- A walk in order looks the recorded station up where it was interrupted. -/
theorem WalksInOrder.index {place : Nat} (walks : WalksInOrder route (some id) place)
    (inhabited : route.stations ≠ []) : stationIndex route id = place := by
  obtain ⟨after, station, stops⟩ := resume_executes id inhabited sampleManifest fun _ => none
  obtain nothing | ⟨start, first, -, -, -, stays⟩ := walks.resume _ _ _ _ _ _ rfl stops
  · cases nothing
  · have rerun : ¬ ((failedAt id).reconciled fun _ => none).Continues := by
      rintro (continues | continues) <;> cases continues
    have recorded : (failedAt id).recorded = some id := rfl
    rw [← stays rerun, ← first, (resumeStartIndex_recorded route _ recorded).2 rerun]

/-- Every call takes its stations in the order of the route exactly when the first
station of the recorded name is the one that was interrupted. -/
theorem walks_in_order_iff (route : Route) (recorded : Option String) (place : Nat) :
    WalksInOrder route recorded place ↔ Retraceable route recorded place := by
  constructor
  · rintro walks id rfl
    by_cases empty : route.stations = []
    · exact .inl empty
    · exact .inr (stationIndex_eq.mp (walks.index empty))
  · intro known
    constructor
    · intro runId manifest workspace ledger after executed stops
      exact (run_logs workspace ledger ⟨runId, route, manifest⟩).stopped stops
    · rintro runId manifest workspace ledger after executed rfl stops
      have logs : (FulfillmentLine.resume ⟨runId, route, manifest⟩).Sustains (Ledger.Logs workspace)
          (fun world => InOrder route (ledger.reconciled workspace) ledger.recorded place
            (resumeStartIndex route ledger.stationRuns (ledger.reconciled workspace)) world.2)
          (fun _ _ => True) (ledger, []) := by
        refine resume_logs _ (fun _ => .inl rfl) (fun world walked => inOrder_of_found known walked) ?_
        intro before after same ordered
        rwa [same]
      exact logs.stopped stops

/-- A route that has lost the recorded station: the resume executes the route's last
station, though every station is before or behind a point that is not there. -/
theorem lost_station_strays : ¬∃ place, WalksInOrder reviewedRoute (some "plan") place := by
  rintro ⟨place, walks⟩
  have missing : "plan" ∉ reviewedRoute.stations.map RouteStation.id := by decide
  have index := walks.index (by decide)
  rw [stationIndex_missing missing] at index
  omega

end TokenPak.Dispatch
