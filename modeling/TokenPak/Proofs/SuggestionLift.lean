import TokenPak.Dispatch.Selection

/-! When a model's suggestion turns a selection into an automatic dispatch that
would not happen without it. The suggested route gains fifteen points, and in every
scored layer: this lifts it over the threshold, or ahead of its rivals. -/

namespace TokenPak.Dispatch.Selection
open TokenPak.Library Ranking

def AutoDispatches (outcome : Except Fault SelectionOutcome) (route : DispatchRoute) : Prop :=
  ∃ chosen, outcome = .ok chosen ∧ chosen.status = .autoDispatch ∧ chosen.route = some route

theorem autoDispatches_iff {outcome : Except Fault SelectionOutcome} {route : DispatchRoute} :
    AutoDispatches outcome route ↔
      outcome.toOption.bind (fun chosen => if chosen.status = .autoDispatch then chosen.route
          else none) = some route := by
  cases outcome with
  | error fault => simp [AutoDispatches, Except.toOption]
  | ok chosen =>
      by_cases dispatched : chosen.status = .autoDispatch <;>
        simp [AutoDispatches, Except.toOption, dispatched]

instance (outcome : Except Fault SelectionOutcome) (route : DispatchRoute) :
    Decidable (AutoDispatches outcome route) :=
  decidable_of_iff _ autoDispatches_iff.symm

section Registry
variable {registry : RouteRegistry} {route : DispatchRoute}

theorem RouteRegistry.ids_nodup (registry : RouteRegistry) : registry.ids.Nodup :=
  registry.sorted.imp fun less => ne_of_lt less

theorem RouteRegistry.id_injective {other : DispatchRoute} (member : route ∈ registry.all)
    (present : other ∈ registry.all)
    (same : route.id = other.id) : route = other :=
  List.inj_on_of_nodup_map registry.ids_nodup member present same

theorem RouteRegistry.get_id (member : route ∈ registry.all) : registry.get route.id = some route := by
  cases found : registry.get route.id with
  | none =>
    have missed := List.find?_eq_none.mp found route member
    simp at missed
  | some other =>
    have same : other.id = route.id := by simpa using List.find?_some found
    rw [RouteRegistry.id_injective (List.mem_of_find?_eq_some found) member same]

end Registry

section Score
variable {route : DispatchRoute} {job : DispatchJob} {workers : WorkerRegistry}
  {suggestion : Option RouteSuggestion}
  {materialMissing : Bool}

theorem scoreRoute_suggestion : (scoreRoute route job workers suggestion materialMissing).score =
    (scoreRoute route job workers none materialMissing).score + if suggestion.any (·.routeId =
      route.id) then 15 else 0 := by
  have none_any : (none : Option RouteSuggestion).any (·.routeId = route.id) = false := rfl
  simp only [scoreRoute, scoreComponents, none_any, List.flatten_cons, List.flatten_nil, List.map_append,
    List.sum_append]
  by_cases suggested : suggestion.any (·.routeId = route.id) <;>
    simp [suggested, Component.weight, Int.add_assoc]

/-- The penalty of a route that cannot be staffed outweighs every bonus. -/
theorem bindRoute_of_score (enough : 60 ≤ (scoreRoute route job workers suggestion materialMissing).score) :
    ∃ bindings, bindRoute route workers = .ok bindings := by
  cases bound : bindRoute route workers with
  | ok bindings => exact ⟨bindings, rfl⟩
  | error error =>
    have unbindable : routeIsBindable route workers = false := by simp [routeIsBindable, bound]
    have least : (scoreRoute route job workers suggestion materialMissing).score ≤ 0 := by
      simp only [scoreRoute, scoreComponents, unbindable, Bool.false_eq_true, if_false,
        List.flatten_cons, List.flatten_nil, List.map_append,
    List.sum_append]
      split_ifs <;> simp [Component.weight]
    omega

theorem confidence_auto {score : RouteScore} :
    thresholdAutoDispatch ≤ score.confidence ↔ 60 ≤ score.score := by
  simp only [RouteScore.confidence, thresholdAutoDispatch]
  omega

end Score

section Scored
variable {runtime : Runtime} {intake : Intake} {suggestion : Option RouteSuggestion} {route : DispatchRoute}

def Runtime.points (runtime : Runtime) (intake : Intake) (suggestion : Option RouteSuggestion)
    (route : DispatchRoute) : Int :=
  (scoreRoute route intake.job runtime.workers suggestion intake.isBlocked).score

/-- What dispatches a route in the scored layers: the autonomy, the threshold, and that the
route is the triggered one or strictly ahead of all others. -/
def Runtime.Prevails (runtime : Runtime) (intake : Intake) (points : DispatchRoute → Int)
    (route : DispatchRoute) : Prop :=
  intake.job.autonomyMode ∈ autoDispatchModes ∧ 60 ≤ points route ∧
    match runtime.triggered intake.job.detectedIntent with
    | some (trigger, _) => route = trigger
    | none =>
        route ∈ runtime.routes.all ∧ ∀ other ∈ runtime.routes.all, other ≠ route →
          points other < points route

theorem finalizeScored_autoDispatches {other : DispatchRoute} {createdAt : Int} {layer : Layer}
    {scores : List RouteScore} :
    AutoDispatches (.ok (runtime.finalizeScored intake.job route
      (scoreRoute route intake.job runtime.workers suggestion intake.isBlocked) createdAt layer scores)) other ↔
      intake.job.autonomyMode ∈ autoDispatchModes ∧ 60 ≤ runtime.points intake suggestion route ∧
          other = route := by
  by_cases enough : 60 ≤ runtime.points intake suggestion route
  · obtain ⟨bindings, bound⟩ := bindRoute_of_score enough
    simp only [AutoDispatches, Runtime.finalizeScored, if_pos (confidence_auto.mpr enough), bound,
      Runtime.dispatchOrApprove,
      Except.ok.injEq, exists_eq_left', Option.some.injEq, enough, true_and]
    by_cases permitted : intake.job.autonomyMode ∈ autoDispatchModes <;> simp [permitted, eq_comm]
  · have short : ¬ thresholdAutoDispatch ≤
        (scoreRoute route intake.job runtime.workers suggestion intake.isBlocked).confidence :=
      fun reached => enough (confidence_auto.mp reached)
    simp only [AutoDispatches, Runtime.finalizeScored, if_neg short, enough, false_and, and_false, iff_false]
    rintro ⟨chosen, same, dispatched, -⟩
    cases same
    split at dispatched <;> cases dispatched

theorem scores_nodup : (runtime.routes.all.map fun route =>
    scoreRoute route intake.job runtime.workers suggestion intake.isBlocked).Nodup := by
  apply List.Nodup.of_map RouteScore.routeId
  rw [List.map_map]
  exact runtime.routes.ids_nodup

/-- The leader of the scores is the score of the route strictly ahead. -/
theorem leader_scores {best : RouteScore} :
    leader RouteScore.score (runtime.scoreAll intake.job suggestion intake.isBlocked) = some best ↔
      ∃ route ∈ runtime.routes.all,
        scoreRoute route intake.job runtime.workers suggestion intake.isBlocked = best ∧
        ∀ other ∈ runtime.routes.all, other ≠ route →
          runtime.points intake suggestion other < runtime.points intake suggestion route := by
  rw [Runtime.scoreAll, leader_ranked scores_nodup]
  constructor
  · intro ⟨member, ahead⟩
    obtain ⟨route, present, rfl⟩ := List.mem_map.mp member
    refine ⟨route, present, rfl, fun other inside differs =>
      ahead _ (List.mem_map_of_mem inside) fun same => differs ?_⟩
    exact RouteRegistry.id_injective inside present (congrArg RouteScore.routeId same)
  · intro ⟨route, present, same, ahead⟩
    subst same
    refine ⟨List.mem_map_of_mem present, fun other inside differs => ?_⟩
    obtain ⟨rival, listed, rfl⟩ := List.mem_map.mp inside
    exact ahead rival listed fun same => differs (same ▸ rfl)

theorem selectScored_autoDispatches {createdAt : Int} :
    AutoDispatches (runtime.selectScored intake suggestion createdAt) route ↔
      runtime.Prevails intake (runtime.points intake suggestion) route := by
  cases found : runtime.triggered intake.job.detectedIntent with
  | some pair =>
    simp only [Runtime.selectScored, Runtime.Prevails, found, finalizeScored_autoDispatches]
    constructor
    · intro ⟨permitted, enough, same⟩
      exact ⟨permitted, same ▸ enough, same⟩
    · intro ⟨permitted, enough, same⟩
      exact ⟨permitted, same ▸ enough, same⟩
  | none =>
    cases led : leader RouteScore.score (runtime.scoreAll intake.job suggestion intake.isBlocked) with
    | some best =>
      obtain ⟨front, present, rfl, ahead⟩ := leader_scores.mp led
      have listed : runtime.routes.get (scoreRoute front intake.job runtime.workers suggestion intake.isBlocked).routeId =
          some front := RouteRegistry.get_id present
      simp only [Runtime.selectScored, Runtime.Prevails, found, led, listed, finalizeScored_autoDispatches]
      constructor
      · intro ⟨permitted, enough, same⟩
        exact ⟨permitted, same ▸ enough, same ▸ present, same ▸ ahead⟩
      · intro ⟨permitted, enough, member, lead⟩
        have same : route = front := by
          by_contra differs
          exact absurd (lead front present (Ne.symm differs)) (ahead route member differs).asymm
        exact ⟨permitted, same ▸ enough, same⟩
    | none =>
      simp only [Runtime.selectScored, Runtime.Prevails, found, led]
      constructor
      · intro ⟨chosen, same, dispatched, _⟩
        cases same
        cases dispatched
      · intro ⟨_, _, member, lead⟩
        rw [leader_scores.mpr ⟨route, member, rfl, lead⟩] at led
        cases led

end Scored

section Lift
variable {runtime : Runtime} {intake : Intake} {suggestion : RouteSuggestion} {route : DispatchRoute}

/-- The suggestion carries its route over the threshold or past the rivals: the points it adds
are what is missing. -/
def Runtime.Lifts (runtime : Runtime) (intake : Intake) (suggestion : RouteSuggestion) : Prop :=
  intake.job.autonomyMode ∈ autoDispatchModes ∧
    ∃ route ∈ runtime.routes.all, route.id = suggestion.routeId ∧ 45 ≤ runtime.points intake none route ∧
      match runtime.triggered intake.job.detectedIntent with
      | some (trigger, _) => route = trigger ∧ runtime.points intake none route < 60
      | none =>
        (∀ other ∈ runtime.routes.all, other ≠ route →
          runtime.points intake none other < runtime.points intake none route + 15) ∧
        (runtime.points intake none route < 60 ∨ ∃ other ∈ runtime.routes.all, other ≠ route ∧
          runtime.points intake none route ≤ runtime.points intake none other)

theorem points_named (same : route.id = suggestion.routeId) :
    runtime.points intake (some suggestion) route = runtime.points intake none route + 15 := by
  rw [Runtime.points, scoreRoute_suggestion, if_pos (by simp [same])]
  rfl

theorem points_other (differs : route.id ≠ suggestion.routeId) :
    runtime.points intake (some suggestion) route = runtime.points intake none route := by
  rw [Runtime.points, scoreRoute_suggestion, if_neg (by simp [Ne.symm differs]), Int.add_zero]
  rfl

theorem points_le : runtime.points intake none route ≤ runtime.points intake (some suggestion) route := by
  by_cases same : route.id = suggestion.routeId
  · rw [points_named same]
    omega
  · rw [points_other same]

theorem triggered_mem {intent : String} {layer : Layer}
    (found : runtime.triggered intent = some (route, layer)) :
    route ∈ runtime.routes.all := by
  have declared : route ∈ runtime.routes.forIntent intent := by
    unfold Runtime.triggered at found
    split at found
    · cases found
    next only => cases found; rw [only]; exact List.mem_singleton_self _
    next =>
      split at found
      next single =>
        cases found
        exact List.mem_of_mem_filter (single ▸ List.mem_singleton_self _)
      next => cases found
  exact List.mem_of_mem_filter declared

theorem Runtime.Prevails.of_other (prevails : runtime.Prevails intake (runtime.points intake (some suggestion)) route)
    (differs : route.id ≠ suggestion.routeId) :
    runtime.Prevails intake (runtime.points intake none) route := by
  obtain ⟨permitted, enough, choice⟩ := prevails
  refine ⟨permitted, points_other differs ▸ enough, ?_⟩
  split at choice
  · exact choice
  · obtain ⟨member, lead⟩ := choice
    refine ⟨member, fun other inside apart => ?_⟩
    calc runtime.points intake none other
        ≤ runtime.points intake (some suggestion) other := points_le
      _ < runtime.points intake (some suggestion) route := lead other inside apart
      _ = runtime.points intake none route := points_other differs

theorem Runtime.Prevails.lifts (prevails : runtime.Prevails intake (runtime.points intake (some suggestion)) route)
    (owed : ¬ runtime.Prevails intake (runtime.points intake none) route) :
    runtime.Lifts intake suggestion := by
  have same : route.id = suggestion.routeId := by
    by_contra differs
    exact owed (prevails.of_other differs)
  obtain ⟨permitted, enough, choice⟩ := prevails
  rw [points_named same] at enough
  simp only [Runtime.Prevails, permitted, true_and, not_and] at owed
  cases found : runtime.triggered intake.job.detectedIntent with
  | some pair =>
    obtain ⟨trigger, layer⟩ := pair
    simp only [found] at choice owed
    have member : route ∈ runtime.routes.all := choice ▸ triggered_mem found
    refine ⟨permitted, route, member, same, by omega, ?_⟩
    simp only [found]
    exact ⟨choice, Int.not_le.mp fun reached => owed reached choice⟩
  | none =>
    simp only [found] at choice owed
    obtain ⟨member, lead⟩ := choice
    refine ⟨permitted, route, member, same, by omega, ?_⟩
    simp only [found]
    constructor
    · intro other inside apart
      have foreign : other.id ≠ suggestion.routeId := fun named =>
        apart (RouteRegistry.id_injective inside member (named.trans same.symm))
      have ahead := lead other inside apart
      rwa [points_other foreign, points_named same] at ahead
    · by_contra neither
      push Not at neither
      exact owed neither.1 ⟨member, neither.2⟩

theorem Runtime.Lifts.prevails (lifts : runtime.Lifts intake suggestion) :
    ∃ route, runtime.Prevails intake (runtime.points intake (some suggestion)) route ∧
      ¬ runtime.Prevails intake (runtime.points intake none) route := by
  obtain ⟨permitted, route, member, same, near, choice⟩ := lifts
  have enough : 60 ≤ runtime.points intake (some suggestion) route := by
    rw [points_named same]
    omega
  cases found : runtime.triggered intake.job.detectedIntent with
  | some pair =>
    simp only [found] at choice
    refine ⟨route, ⟨permitted, enough, ?_⟩, fun prevails => absurd prevails.2.1 (Int.not_le.mpr choice.2)⟩
    simp only [found]
    exact choice.1
  | none =>
    simp only [found] at choice
    obtain ⟨close, behind⟩ := choice
    refine ⟨route, ⟨permitted, enough, ?_⟩, fun prevails => ?_⟩
    · simp only [found]
      refine ⟨member, fun other inside apart => ?_⟩
      have foreign : other.id ≠ suggestion.routeId := fun named =>
        apart (RouteRegistry.id_injective inside member (named.trans same.symm))
      rw [points_other foreign, points_named same]
      exact close other inside apart
    · obtain ⟨_, reached, alone⟩ := prevails
      simp only [found] at alone
      rcases behind with short | ⟨rival, inside, apart, level⟩
      · exact absurd reached (Int.not_le.mpr short)
      · exact absurd (alone.2 rival inside apart) (Int.not_lt.mpr level)

end Lift

/-- Neither the user nor the project names a route. -/
def Unnamed (intake : Intake) (explicitRoute : Option String) (rules : Option ProjectRules) : Prop :=
  explicitRoute.filter (· ≠ "") = none ∧
    (rules.bind fun rules => rules.routeForIntent intake.job.detectedIntent).filter (· ≠ "") = none

section Law
variable {runtime : Runtime} {client : Option SuggestClient} {intake : Intake} {explicitRoute : Option String}
  {rules : Option ProjectRules} {createdAt : Int}

theorem selectRoute_unnamed (unnamed : Unnamed intake explicitRoute rules) :
    runtime.selectRoute client intake explicitRoute rules createdAt =
      (suggest client intake.job.rawRequest runtime.routes.ids).bind fun suggestion =>
        runtime.selectScored intake suggestion createdAt := by
  simp only [Runtime.selectRoute, Runtime.named, unnamed.1, unnamed.2]
  rfl

theorem selectRoute_named (named : ¬ Unnamed intake explicitRoute rules) :
    runtime.selectRoute client intake explicitRoute rules createdAt =
      runtime.selectRoute none intake explicitRoute rules createdAt := by
  cases chosen : runtime.named intake explicitRoute rules createdAt with
  | some outcome => simp only [Runtime.selectRoute, chosen]
  | none =>
    refine absurd ?_ named
    simp only [Runtime.named] at chosen
    split at chosen
    · cases chosen
    next explicit =>
      split at chosen
      · cases chosen
      next forced => exact ⟨explicit, forced⟩

/-- A suggestion turns a selection into an automatic dispatch exactly when it reaches the
scores and lifts its route there. -/
theorem suggestion_never_dispatches (runtime : Runtime) (client : Option SuggestClient) (intake : Intake)
    (explicitRoute : Option String) (rules : Option ProjectRules) (createdAt : Int) :
    (∀ route, AutoDispatches (runtime.selectRoute client intake explicitRoute rules createdAt) route →
        AutoDispatches (runtime.selectRoute none intake explicitRoute rules createdAt) route) ↔
      ∀ suggestion, suggest client intake.job.rawRequest runtime.routes.ids = .ok (some suggestion) →
        Unnamed intake explicitRoute rules → ¬ runtime.Lifts intake suggestion := by
  have silent (unnamed : Unnamed intake explicitRoute rules) (route : DispatchRoute) :
      AutoDispatches (runtime.selectRoute none intake explicitRoute rules createdAt) route ↔
        runtime.Prevails intake (runtime.points intake none) route := by
    rw [selectRoute_unnamed unnamed]
    exact selectScored_autoDispatches
  constructor
  · intro law suggestion accepted unnamed lifts
    obtain ⟨route, prevails, owed⟩ := lifts.prevails
    have dispatched : AutoDispatches (runtime.selectRoute client intake explicitRoute rules createdAt) route := by
      rw [selectRoute_unnamed unnamed, accepted]
      exact selectScored_autoDispatches.mpr prevails
    exact owed ((silent unnamed route).mp (law route dispatched))
  · intro free route dispatched
    by_cases unnamed : Unnamed intake explicitRoute rules
    · rw [silent unnamed]
      rw [selectRoute_unnamed unnamed] at dispatched
      cases accepted : suggest client intake.job.rawRequest runtime.routes.ids with
      | error fault =>
        rw [accepted] at dispatched
        obtain ⟨_, impossible, _⟩ := dispatched
        cases impossible
      | ok suggested =>
        rw [accepted] at dispatched
        have prevails := selectScored_autoDispatches.mp dispatched
        cases suggested with
        | none => exact prevails
        | some suggestion =>
          by_contra owed
          exact free suggestion accepted unnamed (prevails.lifts owed)
    · rwa [selectRoute_named unnamed] at dispatched

end Law

section Packaged

def codeTask : DispatchRoute :=
  { id := "route.code_task.v1", name := "Code Task",
    description := "Implement or fix code; build a patch-first change, then review it.",
      intents := ["code_task"],
    defaultRisk := .medium,
    stations :=
      [⟨⟨"build", some "builder", none, "station_result.v1"⟩,
        ["code_drafting", "patch_generation"]⟩,
      ⟨⟨"review", some "reviewer", none, "reviewer_station_result.v1"⟩, ["semantic_review"]⟩] }

def docTask : DispatchRoute :=
  { id := "route.doc_task.v1", name := "Doc Task",
    description := "Create or update a document, then review it for clarity and grounding.",
      intents := ["doc_task"],
    defaultRisk := .low,
    stations := [⟨⟨"draft", some "builder", none, "station_result.v1"⟩, ["doc_drafting"]⟩,
      ⟨⟨"review", some "reviewer", none, "reviewer_station_result.v1"⟩, ["doc_review"]⟩] }

def quickAnswer : DispatchRoute :=
  { id := "route.quick_answer.v1", name := "Quick Answer",
    description := "Answer a direct question concisely; no files are produced.", intents := ["quick_answer"],
    defaultRisk := .low,
    stations := [⟨⟨"answer", some "builder", none, "station_result.v1"⟩, ["answer_generation"]⟩] }

def packaged : Runtime :=
  { routes := ⟨[codeTask, docTask, quickAnswer], by decide +kernel⟩,
    workers := ⟨[⟨"worker.builder.default.v1", ["builder"],
        ["answer_generation", "code_drafting", "patch_generation", "doc_drafting"]⟩,
      ⟨"worker.reviewer.default.v1", ["reviewer"], ["semantic_review", "doc_review"]⟩], by decide +kernel⟩ }

def deletion : Intake :=
  ⟨⟨"job_1", "Implement the delete command", "code_task", ["deletes_data"], .dispatchWithApproval⟩,
    false⟩

/-- A model that names the code route whatever it is asked. -/
def eager : SuggestClient := fun _ _ =>
  some (.mapping ⟨some "route.code_task.v1", .int 80, .absent, .absent, .absent⟩)

/-- Without the suggestion the user is asked, at fifty points; with it the route runs. -/
theorem suggested_deletion_dispatched :
    ¬ (∀ (runtime : Runtime) (client : Option SuggestClient) (intake : Intake)
    (explicitRoute : Option String) (rules : Option ProjectRules) (createdAt : Int) (route : DispatchRoute),
    AutoDispatches (runtime.selectRoute client intake explicitRoute rules createdAt) route →
      AutoDispatches (runtime.selectRoute none intake explicitRoute rules createdAt) route) := by
  intro law
  have runs : AutoDispatches (packaged.selectRoute (some eager) deletion none none 0) codeTask := by
    decide +kernel
  have asks : ¬ AutoDispatches (packaged.selectRoute none deletion none none 0) codeTask := by decide +kernel
  exact asks (law packaged (some eager) deletion none none 0 codeTask runs)

end Packaged
end TokenPak.Dispatch.Selection
