import TokenPak.Proofs.ResumeIdempotence

/-! The station runs of a run in the order in which they are read. A row is written
several times and each time takes the last place, yet it is only ever the last one
that is written again. The attempts of a station are counted by the resumes. -/

namespace TokenPak.Dispatch
open Library

/-- The worlds that calls can leave which do not overlap, each call ended or stopped
anywhere. -/
inductive Calling {World : Type} (machine : World → (op : Op) → Reply op → World → Prop) (runId : String)
    (allowed : World → Route → Request → Prop) (start : World) : World → Prop
  | start : Calling machine runId allowed start start
  | call {world after : World} {route : Route} {request : Request} (earlier : Calling machine runId allowed start world)
      (made : allowed world route request)
        (stops : Program.Stops machine (request.program runId route) world after) :
      Calling machine runId allowed start after

/-! The order of the rows. -/

/-- The station runs in the order in which each was first written. -/
def Op.starts (started : List String) : Op → List String
  | .writeStationRun row => if row.id ∈ started then started else started ++ [row.id]
  | _ => started

def Ledger.Starts (world : Ledger × List String) (op : Op) (reply : Reply op)
    (after : Ledger × List String) : Prop :=
  world.1.Answers op reply after.1 ∧ after.2 = op.starts world.2

section rows
variable {rows : List StationRun} {row : StationRun}

theorem replace_new (new : row.id ∉ rows.map StationRun.id) :
    Ledger.replaceStationRun row rows = rows ++ [row] := by
  unfold Ledger.replaceStationRun
  rw [List.filter_eq_self.mpr]
  intro other member
  refine decide_eq_true fun same => new ?_
  rw [← same]
  exact List.mem_map_of_mem member

theorem replace_last {last : StationRun} (unique : (rows.map StationRun.id).Nodup)
    (found : rows.getLast? = some last)
    (same : row.id = last.id) : Ledger.replaceStationRun row rows = rows.dropLast ++ [row] := by
  obtain ⟨init, rfl⟩ := List.getLast?_eq_some_iff.mp found
  rw [List.map_append, List.nodup_append'] at unique
  have apart : last.id ∉ init.map StationRun.id := by
    intro member
    exact unique.2.2 member (List.mem_singleton_self _)
  have others : init.filter (fun other => other.id ≠ row.id) = init := by
    rw [List.filter_eq_self]
    intro other member
    refine decide_eq_true fun named => apart ?_
    rw [← same, ← named]
    exact List.mem_map_of_mem member
  unfold Ledger.replaceStationRun
  rw [List.filter_append, others, List.dropLast_concat]
  simp [same]

theorem last_id {last : StationRun} (found : rows.getLast? = some last) :
    (rows.map StationRun.id).getLast? = some last.id := by
  rw [List.getLast?_map, found]
  rfl

end rows

/-- The rows stand in the order in which they were started, and the row that the call
may write is a new one or the last. -/
structure Call.Ordered (call : Call) (world : Ledger × List String) : Prop where
  order : world.1.ids = world.2
  unique : world.2.Nodup
  place : ∀ place, call.walk.current = some place → place.id ∉ world.2 ∨ world.2.getLast? = some place.id
  last : call.walk.current = none → ∀ row, call.stationRuns.getLast? = some row →
    world.2.getLast? = some row.id

section order
variable {world after : Ledger × List String} {call : Call}

theorem Call.Ordered.write {row : StationRun} (ordered : call.Ordered world)
    (fits : row.id ∉ world.2 ∨ world.2.getLast? = some row.id)
    (starts : Ledger.Starts world (.writeStationRun row) () after) :
    after.1.ids = after.2 ∧ after.2.Nodup ∧ after.2.getLast? = some row.id := by
  obtain ⟨ledger, started⟩ := world
  obtain ⟨written, log⟩ := after
  obtain ⟨answered, logged⟩ := starts
  obtain rfl : ledger.ids = started := ordered.order
  obtain rfl : written = _ := answered
  obtain rfl : log = _ := logged
  dsimp only [Op.starts, Ledger.ids] at fits ⊢
  rcases fits with new | final
  · rw [if_neg new, replace_new new, List.map_append, List.map_singleton]
    exact ⟨rfl, List.nodup_append'.mpr ⟨ordered.unique, List.nodup_singleton _, by simpa using new⟩,
      List.getLast?_concat⟩
  · rw [if_pos (List.mem_of_getLast? final)]
    obtain ⟨last, found, named⟩ : ∃ last, ledger.stationRuns.getLast? = some last ∧ last.id = row.id := by
      rw [List.getLast?_map] at final
      exact Option.map_eq_some_iff.mp final
    obtain ⟨init, split⟩ := List.getLast?_eq_some_iff.mp found
    rw [replace_last ordered.unique found named.symm, split, List.dropLast_concat]
    refine ⟨?_, ?_, ?_⟩
    · simp [named]
    · rw [← split]
      exact ordered.unique
    · simp [named]

theorem Call.Ordered.step {route : Route} (call : Call) (world : Ledger × List String) (op : Op)
    (reply : Reply op)
    (after : Ledger × List String) (ordered : call.Ordered world) (allowed : call.Allows op)
    (starts : Ledger.Starts world op reply after) : (call.next route op reply).Ordered after := by
  have framed (rowless : op.Rowless)
      (place : ∀ place, (call.next route op reply).walk.current = some place →
        place.id ∉ world.2 ∨ world.2.getLast? = some place.id)
      (last : (call.next route op reply).walk.current = none → ∀ row,
        (call.next route op reply).stationRuns.getLast? = some row → world.2.getLast? = some row.id) :
      (call.next route op reply).Ordered after := by
    have same : after.2 = world.2 := by
      rw [starts.2]
      cases op <;> first | rfl | exact rowless.elim
    have rows : after.1.ids = world.1.ids := by rw [Ledger.ids, starts.1.rows_kept rowless, Ledger.ids]
    rw [← same] at place last
    exact ⟨by rw [rows, same, ordered.order], same ▸ ordered.unique, place, last⟩
  cases op with
  | writeStationRun row =>
    have fits : row.id ∉ world.2 ∨ world.2.getLast? = some row.id := by
      dsimp only [Call.Allows] at allowed
      split at allowed
      next own current => rw [allowed.1]; exact ordered.place own current
      next closed =>
        obtain ⟨last, status, found, -, rfl⟩ := allowed
        exact .inr (ordered.last closed last found)
    obtain ⟨order, unique, final⟩ := ordered.write fits starts
    refine ⟨order, unique, fun own current => .inr ?_, fun closed other found => ?_⟩
    · dsimp only [Call.next, Walk.records] at current
      dsimp only [Call.Allows] at allowed
      rw [current] at allowed
      rw [final, allowed.1]
    · dsimp only [Call.next, Walk.records] at closed found
      dsimp only [Call.Allows] at allowed
      rw [closed] at allowed
      obtain ⟨last, status, same, -, rfl⟩ := allowed
      cases found.symm.trans same
      exact final
  | uuid =>
    refine framed trivial (fun own current => ?_) fun closed => ?_
    · dsimp only [Call.next, Walk.opens] at current
      split at current
      · exact ordered.place own current
      · cases current
        refine .inl fun member => ?_
        rw [← ordered.order] at member
        obtain ⟨row, present, named⟩ := List.mem_map.mp member
        exact starts.1.1 row present named
    · dsimp only [Call.next, Walk.opens] at closed
      split at closed
      · exact ordered.last closed
      · cases closed
  | readStationRuns =>
    refine framed trivial ordered.place fun _ row found => ?_
    obtain ⟨rfl, -⟩ := starts.1
    rw [← ordered.order]
    exact last_id found
  | hashWorkspace => exact framed trivial (fun _ current => by cases current) fun _ => ordered.last allowed.2
  | readRun =>
    have same : (call.next route .readRun reply).stationRuns = call.stationRuns := by
      dsimp only [Call.next]
      split <;> rfl
    have walk : (call.next route .readRun reply).walk = call.walk := (Call.next_still reply id).1
    exact framed trivial (walk ▸ ordered.place) (walk ▸ same ▸ ordered.last)
  | tryClaimRunLease =>
    cases reply <;> exact framed trivial ordered.place ordered.last
  | releaseRunLease | writeRun | readEffects | markEffectApplied | writeDecision | writeLateResult | writeReceipt
  | isCancelled | work | review => exact framed trivial ordered.place ordered.last

/-- Calls that do not overlap leave the rows in the order in which they were started. -/
theorem Calling.ordered {runId : String} {allowed : Ledger × List String → Route → Request → Prop}
    (calling : Calling Ledger.Starts runId allowed (.empty, []) world) :
    world.1.ids = world.2 ∧ world.2.Nodup := by
  induction calling with
  | start => exact ⟨rfl, List.nodup_nil⟩
  | @call world after route request earlier made stops ih =>
    have ordered : (Call.start route request).Ordered world := by
      cases request <;> exact ⟨ih.1, ih.2, fun _ current => (nomatch current), fun _ _ found => nomatch found⟩
    obtain ⟨call, kept⟩ :=
      (request_conforms runId route request).stopped Call.Ordered stops ordered Call.Ordered.step
    exact ⟨kept.order, kept.unique⟩

end order

/-! The numbers of the attempts. -/

def attempts (stationId : String) (rows : List StationRun) : List Nat :=
  (rows.filter (·.stationId = stationId)).map StationRun.attemptNumber

/-- The attempts of each station are numbered one by one from the first. -/
def Consecutive (rows : List StationRun) : Prop :=
  ∀ stationId, attempts stationId rows = List.range' 1 (attempts stationId rows).length

def Route.At (route : Route) (index : Nat) (stationId : String) : Prop :=
  (route.stations[index]?).map RouteStation.id = some stationId

/-- The rows of a run go through the route from its first station: none is further
than the last one. A review is recorded when it is complete. -/
structure Tidy (route : Route) (rows : List StationRun) : Prop where
  numbered : Consecutive rows
  reviewed : ∀ row ∈ rows, ∀ station ∈ route.stations, station.id = row.stationId →
    station.isReviewerStation = true →
    row.status = .completed
  last : ∀ row, rows.getLast? = some row → ∃ index, route.At index row.stationId ∧
    (attempts row.stationId rows).length = row.attemptNumber ∧
    ∀ further stationId, index < further → route.At further stationId → attempts stationId rows = []

/-- The station run that comes next: the last station again, or the one behind it for
the first time. -/
def NextAt (route : Route) (rows : List StationRun) (index attempt : Nat) : Prop :=
  match rows.getLast? with
  | none => index = 0 ∧ attempt = 1
  | some last =>
    (route.At index last.stationId ∧ attempt = last.attemptNumber + 1 ∧ last.status ≠ .completed) ∨
      ∃ before, index = before + 1 ∧ route.At before last.stationId ∧ attempt = 1

section numbering
variable {route : Route} {rows : List StationRun} {row : StationRun}

theorem attempts_snoc (stationId : String) : attempts stationId (rows ++ [row]) =
    if row.stationId = stationId then attempts stationId rows ++ [row.attemptNumber]
      else attempts stationId rows := by
  by_cases own : row.stationId = stationId <;> simp [attempts, own]

variable {index : Nat}

theorem Route.At.unique {stationId : String} {other : Nat}
    (distinct : (route.stations.map RouteStation.id).Nodup) (here : route.At index stationId)
    (there : route.At other stationId) : index = other := by
  rw [Route.At, ← List.getElem?_map] at here there
  obtain ⟨inside, _⟩ := List.getElem?_eq_some_iff.mp here
  exact (List.getElem?_inj inside distinct).mp (here.trans there.symm)

/-- Where the next row belongs, its station has one attempt less, and no further
station has any. -/
theorem NextAt.counts {attempt : Nat} {stationId : String}
    (distinct : (route.stations.map RouteStation.id).Nodup) (tidy : Tidy route rows)
    (next : NextAt route rows index attempt) (placed : route.At index stationId) :
    (attempts stationId rows).length + 1 = attempt ∧
      ∀ further other, index < further → route.At further other → attempts other rows = [] := by
  unfold NextAt at next
  split at next
  next empty =>
    obtain ⟨-, rfl⟩ := next
    obtain rfl : rows = [] := List.getLast?_eq_none_iff.mp empty
    exact ⟨rfl, fun _ _ _ _ => rfl⟩
  next last found =>
    obtain ⟨reached, there, count, beyond⟩ := tidy.last last found
    rcases next with ⟨here, rfl, -⟩ | ⟨before, rfl, here, rfl⟩
    · obtain rfl := here.unique distinct there
      have same : last.stationId = stationId := Option.some.inj (here.symm.trans placed)
      rw [← same, count]
      exact ⟨rfl, beyond⟩
    · obtain rfl := here.unique distinct there
      rw [beyond (before + 1) stationId (by omega) placed]
      exact ⟨rfl, fun further other behind at_ => beyond further other (by omega) at_⟩

theorem Tidy.add {attempt : Nat} (distinct : (route.stations.map RouteStation.id).Nodup)
    (tidy : Tidy route rows) (next : NextAt route rows index attempt)
    (placed : route.At index row.stationId) (number : row.attemptNumber = attempt)
    (review : ∀ station ∈ route.stations, station.id = row.stationId → station.isReviewerStation = true →
      row.status = .completed) : Tidy route (rows ++ [row]) := by
  obtain ⟨count, beyond⟩ := next.counts distinct tidy placed
  refine ⟨fun stationId => ?_, fun other member => ?_, fun other found => ?_⟩
  · rw [attempts_snoc]
    split
    next own =>
      subst own
      rw [List.length_append, List.length_singleton, List.range'_1_concat, ← tidy.numbered]
      congr 2
      omega
    next => exact tidy.numbered stationId
  · rcases List.mem_append.mp member with old | new
    · exact tidy.reviewed other old
    · rw [List.mem_singleton.mp new]
      exact review
  · obtain rfl : row = other := by rw [List.getLast?_concat] at found; exact Option.some.inj found
    refine ⟨index, placed, ?_, fun further stationId behind there => ?_⟩
    · rw [attempts_snoc, if_pos rfl, List.length_append, List.length_singleton, count, number]
    · have apart : row.stationId ≠ stationId := by
        rintro rfl
        have same := placed.unique distinct there
        omega
      rw [attempts_snoc, if_neg apart]
      exact beyond further stationId behind there

theorem Tidy.rewrite {last : StationRun} (tidy : Tidy route rows) (found : rows.getLast? = some last)
    (station : row.stationId = last.stationId) (number : row.attemptNumber = last.attemptNumber)
    (review : ∀ station ∈ route.stations, station.id = row.stationId → station.isReviewerStation = true →
      row.status = .completed) : Tidy route (rows.dropLast ++ [row]) := by
  obtain ⟨init, rfl⟩ := List.getLast?_eq_some_iff.mp found
  rw [List.dropLast_concat]
  have same (stationId : String) : attempts stationId (init ++ [row]) = attempts stationId (init ++
      [last]) := by
    rw [attempts_snoc, attempts_snoc, station, number]
  refine ⟨fun stationId => ?_, fun other member => ?_, fun other ends => ?_⟩
  · rw [same]
    exact tidy.numbered stationId
  · rcases List.mem_append.mp member with old | new
    · exact tidy.reviewed other (List.mem_append_left _ old)
    · rw [List.mem_singleton.mp new]
      exact review
  · obtain rfl : row = other := by rw [List.getLast?_concat] at ends; exact Option.some.inj ends
    obtain ⟨index, placed, count, beyond⟩ := tidy.last last found
    refine ⟨index, station ▸ placed, ?_, fun further stationId behind there => ?_⟩
    · rw [same, station, count, number]
    · rw [same]
      exact beyond further stationId behind there

/-- A reviewer's station is not run again. -/
theorem NextAt.review {attempt : Nat} {station : RouteStation} (tidy : Tidy route rows)
    (next : NextAt route rows index attempt) (placed : route.stations[index]? = some station)
    (reviewer : station.isReviewerStation = true) : attempt = 1 := by
  unfold NextAt at next
  split at next
  next => exact next.2
  next last found =>
    rcases next with ⟨here, -, uncompleted⟩ | ⟨_, _, _, first⟩
    · rw [Route.At, placed] at here
      have completed := tidy.reviewed last (List.mem_of_getLast? found) station (List.mem_of_getElem? placed)
        (Option.some.inj here) reviewer
      exact absurd completed uncompleted
    · exact first

/-- The station run that a walk has open or comes to next is the one that the rows
call for. -/
def Walk.Going (route : Route) (rows : List StationRun) (walk : Walk) : Prop :=
  match walk.current with
  | none => ∃ index, walk.ahead = route.stations.drop index ∧ NextAt route rows index walk.attempt
  | some place =>
      ∃ index, route.stations[index]? = some place.station ∧
        walk.ahead = route.stations.drop (index + 1) ∧
      walk.attempt = 1 ∧ (place.station.isReviewerStation = true → place.attempt = 1) ∧
      if walk.recorded then
        ∃ last, rows.getLast? = some last ∧ last.id = place.id ∧ last.stationId = place.station.id ∧
          last.attemptNumber = place.attempt
      else place.id ∉ rows.map StationRun.id ∧ NextAt route rows index place.attempt

def Ledger.Uncancelled (ledger : Ledger) (op : Op) (reply : Reply op) (after : Ledger) : Prop :=
  ledger.Answers op reply after ∧ ∀ row, op = .writeStationRun row → row.status ≠ .cancelled

/-- A ledger whose rows go through the route. -/
structure Ledger.Numbered (route : Route) (ledger : Ledger) : Prop where
  unique : ledger.ids.Nodup
  tidy : Tidy route ledger.stationRuns

structure Call.Steady (route : Route) (call : Call) (ledger : Ledger) : Prop where
  planned : call.outcome ≠ none
  unmarked : call.outcome.bind ResumeOutcome.stationStatusTransition = none
  numbered : ledger.Numbered route
  going : call.walk.Going route ledger.stationRuns

section walking
variable {ledger after : Ledger} {call : Call} {place : Place}

theorem Place.Admits.review (admits : place.Admits row) (uncancelled : row.status ≠ .cancelled)
    (distinct : (route.stations.map RouteStation.id).Nodup) (member : place.station ∈ route.stations)
    {station : RouteStation} (present : station ∈ route.stations) (named : station.id = row.stationId)
    (reviewer : station.isReviewerStation = true) : row.status = .completed := by
  obtain ⟨-, same, cancelled | rest⟩ := admits
  · exact absurd cancelled uncancelled
  · obtain rfl : station = place.station :=
      List.inj_on_of_nodup_map distinct present member (named.trans same)
    rw [if_pos reviewer] at rest
    exact rest.1

theorem Call.Steady.write (distinct : (route.stations.map RouteStation.id).Nodup)
    (steady : call.Steady route ledger)
    (current : call.walk.current = some place) (admits : place.Admits row)
    (uncancelled : row.status ≠ .cancelled) :
    ({ call with walk := call.walk.records } : Call).Steady route
      { ledger with stationRuns := Ledger.replaceStationRun row ledger.stationRuns } := by
  obtain ⟨planned, unmarked, ⟨unique, tidy⟩, going⟩ := steady
  unfold Walk.Going at going
  rw [current] at going
  obtain ⟨index, placed, ahead, attempt, first, rest⟩ := going
  have review (station : RouteStation) (present : station ∈ route.stations)
    (also : station.id = row.stationId)
      (reviewer : station.isReviewerStation = true) : row.status = .completed :=
    admits.review uncancelled distinct (List.mem_of_getElem? placed) present also reviewer
  obtain ⟨named, same, kind⟩ := admits
  have number : row.attemptNumber = place.attempt := by
    rcases kind with cancelled | kind
    · exact absurd cancelled uncancelled
    · split at kind
      next reviewer => rw [kind.2, first reviewer]
      next => exact kind
  have written (rows : List StationRun) : Walk.Going route (rows ++ [row]) call.walk.records := by
    unfold Walk.Going Walk.records
    rw [current]
    exact ⟨index, placed, ahead, attempt, first, row, List.getLast?_concat, named, same, number⟩
  split at rest
  next =>
    obtain ⟨last, found, sameId, sameStation, sameAttempt⟩ := rest
    have again : row.id = last.id := named.trans sameId.symm
    rw [replace_last unique found again]
    refine ⟨planned, unmarked, ⟨?_, ?_⟩, written _⟩
    · obtain ⟨init, split⟩ := List.getLast?_eq_some_iff.mp found
      rw [Ledger.ids, split, List.map_append] at unique
      rw [Ledger.ids, split, List.dropLast_concat, List.map_append, List.map_singleton, again]
      exact unique
    · exact tidy.rewrite found (same.trans sameStation.symm) (number.trans sameAttempt.symm) review
  next =>
    obtain ⟨new, next⟩ := rest
    rw [← named] at new
    rw [replace_new new]
    refine ⟨planned, unmarked, ⟨?_, ?_⟩, written _⟩
    · rw [Ledger.ids, List.map_append]
      exact List.nodup_append'.mpr ⟨unique, List.nodup_singleton _, by simpa using new⟩
    · refine tidy.add distinct next ?_ number review
      rw [Route.At, placed, same]
      rfl

theorem drop_cons {α : Type} {values later : List α} {value : α} {index : Nat}
    (split : values.drop index = value :: later) :
    values[index]? = some value ∧ values.drop (index + 1) = later := by
  constructor
  · rw [← List.head?_drop, split]
    rfl
  · rw [← List.tail_drop, split]
    rfl

theorem Walk.Going.opens {walk : Walk} {id : String} (tidy : Tidy route rows) (going : walk.Going route rows)
    (ready : walk.ahead ≠ [] ∧ walk.recorded = true) (fresh : id ∉ rows.map StationRun.id) :
    (walk.opens id).Going route rows := by
  obtain ⟨station, later, ahead⟩ := List.exists_cons_of_ne_nil ready.1
  have opened : walk.opens id = walk.onto ⟨id, station, walk.attempt⟩ later := by rw [Walk.opens, ahead]
  obtain ⟨index, split, next⟩ : ∃ index, walk.ahead = route.stations.drop index ∧
      NextAt route rows index walk.attempt := by
    unfold Walk.Going at going
    split at going
    · exact going
    next place current =>
      obtain ⟨index, placed, split, attempt, -, rest⟩ := going
      rw [if_pos ready.2] at rest
      obtain ⟨last, found, -, station, -⟩ := rest
      refine ⟨index + 1, split, ?_⟩
      unfold NextAt
      rw [found]
      exact .inr ⟨index, rfl, by rw [Route.At, placed, station]; rfl, attempt⟩
  obtain ⟨placed, rest⟩ := drop_cons (split.symm.trans ahead)
  rw [opened]
  exact ⟨index, placed, rest.symm, rfl, fun reviewer => next.review tidy placed reviewer, fresh, next⟩

theorem Call.Steady.step (distinct : (route.stations.map RouteStation.id).Nodup) (call : Call)
    (ledger : Ledger) (op : Op)
    (reply : Reply op) (after : Ledger) (steady : call.Steady route ledger) (allowed : call.Allows op)
    (answered : ledger.Uncancelled op reply after) : (call.next route op reply).Steady route after := by
  obtain ⟨answered, uncancelled⟩ := answered
  have framed (rowless : op.Rowless) (outcome : (call.next route op reply).outcome = call.outcome)
      (going : (call.next route op reply).walk.Going route ledger.stationRuns) :
      (call.next route op reply).Steady route after := by
    have same := answered.rows_kept rowless
    refine ⟨outcome ▸ steady.planned, outcome ▸ steady.unmarked, ⟨?_, same ▸ steady.numbered.tidy⟩,
      same ▸ going⟩
    rw [Ledger.ids, same]
    exact steady.numbered.unique
  cases op with
  | writeStationRun row =>
    obtain rfl : after = _ := answered
    dsimp only [Call.Allows] at allowed
    split at allowed
    next own current => exact steady.write distinct current allowed (uncancelled row rfl)
    next =>
      obtain ⟨last, status, -, moves, -⟩ := allowed
      rw [steady.unmarked] at moves
      cases moves
  | uuid =>
    refine framed trivial rfl (steady.going.opens steady.numbered.tidy allowed fun member => ?_)
    obtain ⟨row, present, named⟩ := List.mem_map.mp member
    exact answered.1 row present named
  | hashWorkspace => exact absurd allowed.1 steady.planned
  | readRun | tryClaimRunLease =>
    obtain ⟨walk, outcome⟩ := Call.next_still reply id
    exact framed trivial outcome (walk ▸ steady.going)
  | releaseRunLease | writeRun | readStationRuns | readEffects | markEffectApplied | writeDecision | writeLateResult
  | writeReceipt | isCancelled | work | review => exact framed trivial rfl steady.going

end walking
end numbering

section calls
variable {α : Type} {ledger : Ledger} {job : Job} {run : Run}
variable {route : Route}

theorem Ledger.Numbered.frame {after : Ledger} (numbered : ledger.Numbered route)
    (same : after.stationRuns = ledger.stationRuns) : after.Numbered route := by
  refine ⟨?_, same ▸ numbered.tidy⟩
  rw [Ledger.ids, same]
  exact numbered.unique

theorem Ledger.Numbered.ask {op : Op} {next : Reply op → Line α} {post : Ledger → α → Prop}
    (numbered : ledger.Numbered route) (rowless : op.Rowless)
    (rest : ∀ reply after, ledger.Answers op reply after → after.stationRuns = ledger.stationRuns →
      (next reply).Sustains Ledger.Uncancelled (Ledger.Numbered route) post after) :
    (Dispatch.ask op >>= next).Sustains Ledger.Uncancelled (Ledger.Numbered route) post ledger :=
  .ask numbered fun reply after answered => rest reply after answered.1 (answered.1.rows_kept rowless)

theorem walkFrom_numbered {progress : Progress} {index attempt : Nat}
    (distinct : (job.route.stations.map RouteStation.id).Nodup) (going : ¬ progress.run.status.Terminal)
    (numbered : ledger.Numbered job.route) (next : NextAt job.route ledger.stationRuns index attempt) :
    (walkFrom job progress index attempt).Sustains Ledger.Uncancelled (Ledger.Numbered job.route)
    (fun _ _ => True)
      ledger := by
  let call : Call := ⟨true, some (some progress.run), [], [], some (reconcileRun [] [] fun _ => none),
    .from (stationsFrom job.route index) attempt⟩
  have conforms : (walkFrom job progress index attempt).Conforms (callProtocol job.route)
      (fun _ _ => True) call :=
    walkFrom_conforms ⟨rfl, ⟨progress.run, rfl, going⟩, going⟩ rfl
  have steady : call.Steady job.route ledger :=
    ⟨Option.some_ne_none _, rfl, numbered, index, stationsFrom_nat job.route index, next⟩
  refine ((conforms.sustains _ steady (Call.Steady.step distinct)).mono fun _ _ _ _ => trivial).weaken ?_
  rintro after ⟨later, steady⟩
  exact steady.numbered

theorem finalizeRun_numbered {status : RunStatus} {decision : Option Decision}
    (numbered : ledger.Numbered route) :
    (finalizeRun run status decision).Sustains Ledger.Uncancelled (Ledger.Numbered route)
    (fun _ _ => True) ledger := by
  refine numbered.ask trivial fun persisted after _ same => ?_
  have numbered := numbered.frame same
  split
  · exact .pure numbered trivial
  · exact numbered.ask trivial fun _ after _ same => .pure (numbered.frame same) trivial

theorem promoteEffects_numbered (ids : List String) (numbered : ledger.Numbered route) :
    (promoteEffects ids).Sustains Ledger.Uncancelled (Ledger.Numbered route)
      (fun after _ => after.stationRuns = ledger.stationRuns) ledger := by
  induction ids generalizing ledger with
  | nil => exact .pure numbered rfl
  | cons id ids ih =>
    refine numbered.ask trivial fun _ after _ same => ?_
    exact (ih (numbered.frame same)).mono fun _ _ _ also => also.trans same

theorem Tidy.transitioned {rows : List StationRun} (effects : List Effect) (workspace : Workspace)
    (unique : (rows.map StationRun.id).Nodup) (tidy : Tidy route rows) :
    ((Dispatch.transitioned rows (reconcileRun rows effects workspace)).map StationRun.id).Nodup ∧
      Tidy route (Dispatch.transitioned rows (reconcileRun rows effects workspace)) := by
  unfold Dispatch.transitioned
  split
  next last status found moves =>
    obtain ⟨-, -, open_⟩ := reconcileRun_transition moves
    have kept : ({ last with status := status } : StationRun).id = last.id := rfl
    rw [replace_last unique found kept]
    refine ⟨?_, tidy.rewrite found rfl rfl fun station present named reviewer => ?_⟩
    · obtain ⟨init, split⟩ := List.getLast?_eq_some_iff.mp found
      rw [split, List.map_append] at unique
      rw [split, List.dropLast_concat, List.map_append]
      exact unique
    · exact absurd (tidy.reviewed last (List.mem_of_getLast? found) station present named reviewer)
        (open_ last found)
  next => exact ⟨unique, tidy⟩

theorem transitionStation_numbered {effects : List Effect} {workspace : Workspace}
    (numbered : ledger.Numbered route) :
    (transitionStation ledger.stationRuns (reconcileRun ledger.stationRuns effects workspace)).Sustains Ledger.Uncancelled
      (Ledger.Numbered route)
      (fun after _ =>
        after.stationRuns =
        transitioned ledger.stationRuns (reconcileRun ledger.stationRuns effects workspace))
      ledger := by
  obtain ⟨unique, tidy⟩ := numbered.tidy.transitioned effects workspace numbered.unique
  unfold transitionStation
  split
  next last status found moves =>
    have marked : transitioned ledger.stationRuns (reconcileRun ledger.stationRuns effects workspace) =
        Ledger.replaceStationRun { last with status := status } ledger.stationRuns := by
      rw [transitioned, found, moves]
    rw [marked] at unique tidy ⊢
    refine ⟨numbered, fun _ after written => ?_⟩
    obtain rfl : after = _ := written.1
    exact .pure ⟨unique, tidy⟩ rfl
  next unmoved =>
    refine .pure numbered ?_
    unfold transitioned
    split
    next last status found moves => exact absurd moves (unmoved last status found)
    next => rfl

theorem Route.At.index {stationId : String} {index : Nat}
    (distinct : (route.stations.map RouteStation.id).Nodup) (placed : route.At index stationId) :
    stationIndex route stationId = index := by
  obtain ⟨station, found, named⟩ := Option.map_eq_some_iff.mp placed
  obtain ⟨position, same, there⟩ :=
    stationIndex_found (List.mem_map.mpr ⟨station, List.mem_of_getElem? found, named⟩)
  rw [same, placed.unique distinct there]

/-- Where a resume goes on is what the rows call for. -/
theorem nextAt_resumed {rows : List StationRun} {effects : List Effect} {workspace : Workspace}
    {outcome : ResumeOutcome} (same : outcome = reconcileRun rows effects workspace)
    (distinct : (route.stations.map RouteStation.id).Nodup) (tidy : Tidy route rows)
    (goesOn : outcome.action ≠ .decisionRequired) :
    ∃ index : Nat, resumeStartIndex route rows outcome = index ∧
      NextAt route (transitioned rows outcome) index outcome.firstAttempt := by
  cases found : rows.getLast? with
  | none =>
    have starts : outcome.action = .continueNextStation ∧ outcome.stationStatusTransition = none := by
      rw [same, reconcileRun, found]
      exact ⟨rfl, rfl⟩
    refine ⟨0, by rw [resumeStartIndex, found]; rfl, ?_⟩
    rw [transitioned, found, NextAt, found, ResumeOutcome.firstAttempt, starts.1]
    exact ⟨rfl, rfl⟩
  | some last =>
    obtain ⟨index, placed, -, -⟩ := tidy.last last found
    have start : resumeStartIndex route rows outcome =
        if outcome.action = .continueNextStation ∨
            outcome.action = .promoteAndContinue then (index : Int) + 1 else index := by
      rw [resumeStartIndex, found]
      dsimp only
      rw [placed.index distinct]
    by_cases completed : last.status = .completed
    · have passes : outcome.action = .continueNextStation ∧ outcome.stationStatusTransition = none := by
        rw [same, reconcileRun, found]
        simp only [completed, and_self]
      refine ⟨index + 1, ?_, ?_⟩
      · rw [start, if_pos (.inl passes.1)]
        rfl
      · rw [transitioned, found, passes.2, NextAt, found, ResumeOutcome.firstAttempt, passes.1]
        exact .inr ⟨index, rfl, placed, rfl⟩
    · obtain ⟨status, marks, unfinished⟩ : ∃ status, outcome.stationStatusTransition = some status ∧
          status ≠ .completed := by
        rw [same]
        rcases reconcileRun_marks found completed effects workspace with moves | moves
        · exact ⟨_, moves, by decide⟩
        · exact ⟨_, moves, by decide⟩
      have ends : (transitioned rows outcome).getLast? = some { last with status := status } := by
        rw [transitioned, found, marks]
        exact List.getLast?_concat
      by_cases rerun : outcome.action = .rerunStation
      · have attempt : outcome.rerunAttemptNumber = some (last.attemptNumber + 1) := by
          rw [same] at rerun ⊢
          by_cases running : last.status = .running
          · exact (reconcileRun_reruns found running rerun).attempt
          · exact (reconcileRun_rerun found completed running effects workspace).2.1
        refine ⟨index, ?_, ?_⟩
        · rw [start, rerun, if_neg (by decide)]
        · rw [NextAt, ends, ResumeOutcome.firstAttempt, rerun, attempt]
          exact .inl ⟨placed, rfl, unfinished⟩
      · have passes : outcome.action = .continueNextStation ∨ outcome.action = .promoteAndContinue := by
          cases action : outcome.action with
          | continueNextStation => exact .inl rfl
          | promoteAndContinue => exact .inr rfl
          | rerunStation => exact absurd action rerun
          | decisionRequired => exact absurd action goesOn
        refine ⟨index + 1, ?_, ?_⟩
        · rw [start, if_pos passes]
          rfl
        · rw [NextAt, ends, ResumeOutcome.firstAttempt, if_neg rerun]
          exact .inr ⟨index, rfl, placed, rfl⟩

theorem resumeRun_numbered (distinct : (job.route.stations.map RouteStation.id).Nodup)
    (going : ¬ run.status.Terminal)
    (numbered : ledger.Numbered job.route) :
    (resumeRun job run).Sustains Ledger.Uncancelled (Ledger.Numbered job.route) (fun _ _ => True) ledger := by
  refine numbered.ask trivial fun stationRuns after read _ => ?_
  obtain ⟨rfl, rfl⟩ : stationRuns = ledger.stationRuns ∧ ledger = after := ⟨read.1, read.2.symm⟩
  have reads : (readEffectsForLast ledger.stationRuns).Sustains Ledger.Answers (Ledger.Numbered job.route)
      (fun after effects => after = ledger ∧ effects = ledger.lastEffects) ledger :=
        readEffectsForLast_reads numbered
  refine .bind ((reads.restrict fun _ _ _ _ answered => answered.1).mono ?_)
  rintro after effects - ⟨rfl, -⟩
  refine numbered.ask trivial fun workspace later hashed _ => ?_
  obtain rfl : later = after := hashed
  have tidy := numbered.tidy
  refine .bind ((transitionStation_numbered numbered).mono ?_)
  rintro marked - numbered rows
  unfold followOutcome
  split
  · refine numbered.ask trivial fun _ after _ same => ?_
    exact .bind ((finalizeRun_numbered (numbered.frame same)).mono fun _ _ here _ => .pure here trivial)
  next undecided =>
    refine .bind ((promoteEffects_numbered _ numbered).mono fun after _ here same => ?_)
    have goesOn : (reconcileRun later.stationRuns effects workspace).action ≠ .decisionRequired := by
      intro asks
      obtain ⟨decision, asked⟩ :=
        Option.ne_none_iff_exists'.mp (reconcileRun_asks later.stationRuns effects workspace asks)
      exact undecided decision asks asked
    obtain ⟨index, start, next⟩ := nextAt_resumed rfl distinct tidy goesOn
    rw [start]
    apply walkFrom_numbered distinct going here
    rw [same, rows]
    exact next

theorem release_numbered {value : α} (numbered : ledger.Numbered route) : (do
      Dispatch.ask .releaseRunLease
      return value : Line α).Sustains Ledger.Uncancelled (Ledger.Numbered route) (fun _ _ => True) ledger :=
  numbered.ask trivial fun _ _ _ same => .pure (numbered.frame same) trivial

theorem resume_numbered (job : Job) (distinct : (job.route.stations.map RouteStation.id).Nodup)
    (numbered : ledger.Numbered job.route) :
    (FulfillmentLine.resume job).Sustains Ledger.Uncancelled (Ledger.Numbered job.route)
    (fun _ _ => True) ledger := by
  unfold FulfillmentLine.resume
  refine numbered.ask trivial fun first after _ same => ?_
  have numbered := numbered.frame same
  split
  · exact .pure numbered trivial
  · split
    · exact .pure numbered trivial
    · refine numbered.ask trivial fun claimed after _ same => ?_
      have numbered := numbered.frame same
      split
      · exact .pure numbered trivial
      · refine numbered.ask trivial fun again after _ same => ?_
        have numbered := numbered.frame same
        split
        · exact release_numbered numbered
        next run =>
          split
          · exact release_numbered numbered
          next going =>
            exact .bind ((resumeRun_numbered distinct going numbered).mono fun _ _ here _ =>
              release_numbered here)

theorem run_numbered (job : Job) (distinct : (job.route.stations.map RouteStation.id).Nodup)
    (numbered : ledger.Numbered job.route)
    (unstarted : ledger.stationRuns = []) :
    (FulfillmentLine.run job).Sustains Ledger.Uncancelled (Ledger.Numbered job.route)
    (fun _ _ => True) ledger := by
  have going : ¬ RunStatus.running.Terminal := by decide
  unfold FulfillmentLine.run
  refine numbered.ask trivial fun claimed after _ same => ?_
  have numbered := numbered.frame same
  split
  · exact .pure numbered trivial
  · refine numbered.ask trivial fun existing after _ also => ?_
    have numbered := numbered.frame also
    split
    · exact release_numbered numbered
    · refine numbered.ask trivial fun _ after _ again => ?_
      have next : NextAt job.route after.stationRuns 0 1 := by
        rw [again, also, same, unstarted]
        exact ⟨rfl, rfl⟩
      exact .bind ((walkFrom_numbered distinct going (numbered.frame again) next).mono fun _ _ here _ =>
        release_numbered here)

end calls

/-- All calls are for one route, and a run is started on a ledger without station runs. -/
def OnRoute (route : Route) (ledger : Ledger) (other : Route) (request : Request) : Prop :=
  other = route ∧ ∀ manifest, request = .run manifest → ledger.stationRuns = []

theorem Calling.numbered {runId : String} {route : Route} {ledger : Ledger}
    (distinct : (route.stations.map RouteStation.id).Nodup)
    (calling : Calling Ledger.Uncancelled runId (OnRoute route) .empty ledger) : ledger.Numbered route := by
  induction calling with
  | start =>
      exact ⟨List.nodup_nil, fun _ => rfl, fun _ member => (nomatch member), fun _ found =>
        nomatch found⟩
  | @call ledger after other request earlier made stops ih =>
    obtain ⟨rfl, started⟩ := made
    cases request with
    | run manifest =>
      have sustained : (FulfillmentLine.run ⟨runId, other,
        manifest⟩).Sustains Ledger.Uncancelled (Ledger.Numbered other)
          (fun _ _ => True) ledger :=
        run_numbered ⟨runId, other, manifest⟩ distinct ih (started manifest rfl)
      exact sustained.stopped stops
    | resume manifest =>
      have sustained : (FulfillmentLine.resume ⟨runId, other,
        manifest⟩).Sustains Ledger.Uncancelled (Ledger.Numbered other)
          (fun _ _ => True) ledger := resume_numbered ⟨runId, other, manifest⟩ distinct ih
      exact sustained.stopped stops

/-- Calls that do not overlap leave the station runs in the order in which they were
started. When a run is started once and resumed on the same route, and no station run
is recorded as cancelled, the attempts of each station are numbered one by one. -/
theorem station_runs_in_order (runId : String) :
    (∀ world, Calling Ledger.Starts runId (fun _ _ _ => True) (.empty, []) world → world.1.ids = world.2) ∧
      ∀ route ledger, (route.stations.map RouteStation.id).Nodup →
        Calling Ledger.Uncancelled runId (OnRoute route) .empty ledger → Consecutive ledger.stationRuns := by
  constructor
  · intro world calling
    exact calling.ordered.1
  · intro route ledger distinct calling
    exact (Calling.numbered distinct calling).tidy.numbered

/-! A run that stops while it builds, and is resumed or run again. -/

def Op.cancelsRow : Op → Bool
  | .writeStationRun row => row.status = .cancelled
  | _ => false

/-- The answers of a scene in which no station run is recorded as cancelled. -/
def Scene.uncancelled (scene : Scene) (id : String) (ledger : Ledger) (op : Op) :
    Option (Reply op × Ledger) :=
  if op.cancelsRow then none else scene.answer id ledger op

theorem Scene.uncancelled_sound (scene : Scene) (id : String) (ledger : Ledger) (op : Op)
    (reply : Reply op) (after : Ledger)
    (answered : scene.uncancelled id ledger op = some (reply, after)) :
    ledger.Uncancelled op reply after := by
  unfold Scene.uncancelled at answered
  split at answered
  · cases answered
  next kept =>
    refine ⟨scene.answer_sound _ _ _ _ _ answered, ?_⟩
    rintro row rfl cancelled
    exact kept (decide_eq_true cancelled)

def Scene.starts (scene : Scene) (id : String) (world : Ledger × List String) (op : Op) :
    Option (Reply op × Ledger × List String) :=
  (scene.answer id world.1 op).map fun (reply, after) => (reply, after, op.starts world.2)

theorem Scene.starts_sound (scene : Scene) (id : String) (world : Ledger × List String) (op : Op)
    (reply : Reply op)
    (after : Ledger × List String) (answered : scene.starts id world op = some (reply, after)) :
    Ledger.Starts world op reply after := by
  obtain ⟨⟨given, ledger⟩, answers, same⟩ := Option.map_eq_some_iff.mp answered
  obtain ⟨rfl, rfl⟩ := Prod.mk.inj same
  exact ⟨scene.answer_sound _ _ _ _ _ answers, rfl⟩

theorem station_runs_in_order_resumed :
    (∃ world, Calling Ledger.Starts "run_1" (fun _ _ _ => True) (.empty, []) world ∧
      world.1.ids = ["stationrun_1", "stationrun_2"] ∧ world.1.ids = world.2) ∧
    ∃ ledger, Calling Ledger.Uncancelled "run_1" (OnRoute reviewedRoute) .empty ledger ∧
      attempts "build" ledger.stationRuns = [1, 2] ∧ Consecutive ledger.stationRuns := by
  obtain ⟨ordered, numbered⟩ := station_runs_in_order "run_1"
  constructor
  · have played : ((Program.drive (judgedScene .pass).starts (.replicate 7 "stationrun_1")
        ((Request.run sampleManifest).program "run_1" reviewedRoute) (.empty, [])).bind fun before =>
          Program.drive (judgedScene .pass).starts (.replicate 12 "stationrun_2")
            ((Request.resume sampleManifest).program "run_1" reviewedRoute) before).map (fun world => world.1.ids) =
        some ["stationrun_1", "stationrun_2"] := by decide +kernel
    obtain ⟨world, both, ids⟩ := Option.map_eq_some_iff.mp played
    obtain ⟨before, first, second⟩ := Option.bind_eq_some_iff.mp both
    have calling : Calling Ledger.Starts "run_1" (fun _ _ _ => True) (.empty, []) world :=
      .call (.call .start trivial (Program.drive_stops (judgedScene .pass).starts_sound first)) trivial
        (Program.drive_stops (judgedScene .pass).starts_sound second)
    exact ⟨world, calling, ids, ordered world calling⟩
  · have played : ((Program.drive (judgedScene .pass).uncancelled (.replicate 7 "stationrun_1")
        ((Request.run sampleManifest).program "run_1" reviewedRoute) .empty).bind fun before =>
          Program.drive (judgedScene .pass).uncancelled (.replicate 12 "stationrun_2")
            ((Request.resume sampleManifest).program "run_1" reviewedRoute) before).map
              (fun ledger => attempts "build" ledger.stationRuns) = some [1, 2] := by decide +kernel
    obtain ⟨ledger, both, counted⟩ := Option.map_eq_some_iff.mp played
    obtain ⟨before, first, second⟩ := Option.bind_eq_some_iff.mp both
    have started : Calling Ledger.Uncancelled "run_1" (OnRoute reviewedRoute) .empty before :=
      .call .start ⟨rfl, fun _ _ => rfl⟩ (Program.drive_stops (judgedScene .pass).uncancelled_sound first)
    have calling : Calling Ledger.Uncancelled "run_1" (OnRoute reviewedRoute) .empty ledger :=
      .call started ⟨rfl, fun _ (same : Request.resume sampleManifest = _) => nomatch same⟩
        (Program.drive_stops (judgedScene .pass).uncancelled_sound second)
    exact ⟨ledger, calling, counted, numbered reviewedRoute ledger (by decide) calling⟩

/-- A run that is started a second time begins with first attempts again. -/
theorem restarted_attempts_repeat :
    ¬∀ runId ledger, Calling Ledger.Answers runId (fun _ _ _ => True) .empty ledger →
      Consecutive ledger.stationRuns := by
  intro consecutive
  have played : (((judgedScene .pass).play "run_1" reviewedRoute (.run sampleManifest) (.replicate 7 "stationrun_1") .empty).bind
      fun before => (judgedScene .pass).play "run_1" reviewedRoute (.run sampleManifest) (.replicate 7 "stationrun_2") before).map
        (fun ledger => attempts "build" ledger.stationRuns) = some [1, 1] := by decide +kernel
  obtain ⟨ledger, both, counted⟩ := Option.map_eq_some_iff.mp played
  obtain ⟨before, first, second⟩ := Option.bind_eq_some_iff.mp both
  have numbered := consecutive "run_1" ledger
    (.call (.call .start trivial (Scene.play_stops first)) trivial (Scene.play_stops second)) "build"
  rw [counted] at numbered
  exact absurd numbered (by decide)

end TokenPak.Dispatch
