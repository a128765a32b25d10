import TokenPak.Dispatch.Patch

/-! Which paths a patch can be written to. The globs are matched against the names
of the path as they are given, and the write follows them: the two agree when no
name leads upwards and no line break hides the path from a glob. -/

namespace TokenPak.Dispatch.Patch
open TokenPak.Library Pattern

section Names
variable {text : List Char} {names : List (List Char)} {name : List Char}

theorem not_mem_of_mem_splitOn {c : Char} (member : name ∈ text.splitOn c) : c ∉ name := by
  induction text generalizing name with
  | nil =>
    have empty : name = [] := by simpa using member
    simp [empty]
  | cons x text ih =>
    rw [List.splitOn_cons_eq_if_modifyHead] at member
    split at member
    · rcases List.mem_cons.mp member with rfl | later
      · exact List.not_mem_nil
      · exact ih later
    next other =>
      cases parts : text.splitOn c with
      | nil => exact absurd parts (List.splitOn_ne_nil c text)
      | cons head rest =>
        rw [parts] at member
        rcases List.mem_cons.mp member with rfl | later
        · intro inside
          rcases List.mem_cons.mp inside with same | within
          · exact other (by simp [same])
          · exact ih (parts ▸ List.mem_cons_self) within
        · exact ih (parts ▸ List.mem_cons_of_mem _ later)

theorem mem_pathNames (member : name ∈ pathNames text) : '/' ∉ name ∧ name ≠ [] ∧ name ≠ ['.'] := by
  obtain ⟨split, proper⟩ := List.mem_filter.mp member
  exact ⟨not_mem_of_mem_splitOn split, by simpa using proper⟩

theorem pathNames_pathText (proper : ∀ name ∈ names, '/' ∉ name ∧ name ≠ [] ∧ name ≠ ['.']) :
    pathNames (pathText names) = names := by
  by_cases empty : names = []
  · subst empty
    decide
  · rw [pathNames, pathText, if_neg empty,
      List.splitOn_intercalate '/' (fun name member => (proper name member).1) empty]
    exact List.filter_eq_self.mpr fun name member => by simpa using (proper name member).2

theorem normalize_eq (relativePath : String) :
    normalize relativePath = pathText (pathNames (normalize relativePath)) := by
  have plain (names : List (List Char)) (proper : ∀ name ∈ names, '/' ∉ name ∧ name ≠ [] ∧ name ≠ ['.']) :
      ¬ ['.', '/'] <+: pathText names := by
    intro ⟨rest, text⟩
    have parts : pathNames (pathText names) = names := pathNames_pathText proper
    have first : ['.'] ∈ (pathText names).splitOn '/' := by
      rw [← text]
      simp [List.splitOn_cons_eq_if_modifyHead]
    by_cases empty : names = []
    · subst empty
      simp [pathText] at text
    · rw [pathText, if_neg empty, List.splitOn_intercalate '/' (fun name member =>
        (proper name member).1) empty] at first
      exact (proper _ first).2.2 rfl
  unfold normalize
  simp only [if_neg (plain _ fun _ member => mem_pathNames member),
    pathNames_pathText fun _ member => mem_pathNames member]

end Names

section Globs
variable {path word : List Char}

theorem globToRegex_agrees {accepts other : Char → Bool} (same : ∀ c ∈ word, accepts c = other c)
    (pattern : List Char) :
    List.Forall₂ (Piece.Agrees word) (globToRegex accepts pattern) (globToRegex other pattern) := by
  fun_induction globToRegex accepts pattern <;> simp only [globToRegex]
  case case1 => exact .nil
  case case2 ih => exact .cons (.optionally same) ih
  case case3 ih => exact .cons (.many same) ih
  case case4 ih => exact .cons (.many fun _ _ => rfl) ih
  case case5 ih => exact .cons (.one fun _ _ => rfl) ih
  case case6 ih => exact .cons (.one fun _ _ => rfl) ih

/-- On a path without a line break the regular expression of a glob means what the glob does. -/
theorem matchesAny_dot (plain : '\n' ∉ path) (patterns : List String) :
    matchesAny dot path patterns = matchesAny (fun _ => true) path patterns := by
  have same : ∀ c ∈ path, dot c = true := fun c member => decide_eq_true fun broken => plain (broken ▸ member)
  unfold matchesAny
  congr 1
  funext pattern
  exact fullmatch_congr (globToRegex_agrees same pattern.toList) path (List.Subset.refl path)

/-- The glob of the paths that have their slashes where this one has them. -/
def shape (path : List Char) : String := String.ofList (path.map fun c => if c = '/' then '/' else '?')

theorem fullmatch_shape (accepts : Char → Bool) :
    fullmatch (globToRegex accepts (shape path).toList) word = true ↔
      List.Forall₂ (fun c d => c = '/' ↔ d = '/') path word := by
  rw [shape, String.toList_ofList]
  induction path generalizing word with
  | nil => cases word <;> simp [globToRegex, fullmatch]
  | cons c path ih =>
    by_cases slash : c = '/'
    · have first : globToRegex accepts ('/' :: path.map fun c => if c = '/' then '/' else '?') =
          .one (· = '/') :: globToRegex accepts (path.map fun c => if c = '/' then '/'
              else '?') := by
            simp [globToRegex]
      cases word with
      | nil => simp [slash, first, fullmatch, Piece.run, takes]
      | cons d word => simp [slash, first, fullmatch, Piece.run, takes, ih]
    · have first : globToRegex accepts ('?' :: path.map fun c => if c = '/' then '/' else '?') =
          .one (· ≠ '/') :: globToRegex accepts (path.map fun c => if c = '/' then '/'
              else '?') := by
            simp [globToRegex]
      cases word with
      | nil => simp [slash, first, fullmatch, Piece.run, takes]
      | cons d word => simp [slash, first, fullmatch, Piece.run, takes, ih]

theorem length_splitOn_of_shape (alike : List.Forall₂ (fun c d => c = '/' ↔ d = '/') path word) :
    (path.splitOn '/').length = (word.splitOn '/').length := by
  induction alike with
  | nil => rfl
  | @cons c d path word first _ ih =>
    by_cases slash : c = '/'
    · simp [List.splitOn_cons_eq_if_modifyHead, slash, first.mp slash, ih]
    · have other : d ≠ '/' := fun same => slash (first.mpr same)
      simp [List.splitOn_cons_eq_if_modifyHead, slash, other, ih]

theorem fullmatch_everything (accepts : Char → Bool) (path : List Char) :
    fullmatch (globToRegex accepts "**".toList) path = path.all accepts := fullmatch_many accepts path

theorem matchesAny_mono {accepts : Char → Bool} {patterns more : List String} (inside : patterns ⊆ more)
    (found : matchesAny accepts path patterns = true) : matchesAny accepts path more = true := by
  obtain ⟨pattern, member, matched⟩ := List.any_eq_true.mp found
  exact List.any_eq_true.mpr ⟨pattern, inside member, matched⟩

end Globs

section Call
variable {hash : Bytes → String} {request : PatchRequest} {workspace : Workspace} {norm : List Char}
  {planned : Effect}
  {call : WriteCall}

theorem checkPathPolicy_ok {relativePath : String} {policy : PathPolicy} :
    checkPathPolicy relativePath policy = .ok norm ↔ norm = normalize relativePath ∧
      matchesAny dot norm policy.deniedPaths = false ∧ matchesAny dot norm policy.allowedPaths = true := by
  simp only [checkPathPolicy]
  constructor
  · intro passed
    split at passed
    · cases passed
    next free =>
      split at passed
      · cases passed
      next within =>
        cases passed
        exact ⟨rfl, by simpa using free, by simpa using within⟩
  · intro ⟨same, free, within⟩
    subst same
    simp [free, within]

theorem planPatch_ok (plans : planPatch hash request workspace = .ok (norm, planned)) :
    norm = normalize request.relativePath ∧ matchesAny dot norm request.policy.deniedPaths = false ∧
      matchesAny dot norm request.policy.allowedPaths = true ∧
      workspace.tree.stat workspace.root (pathMoves norm) ≠ some .directory := by
  unfold planPatch at plans
  cases authorized : authorizeToolCall .applyPatch request.autonomyMode request.approvalGranted with
  | error error => simp [authorized, bind, Except.bind] at plans
  | ok permission =>
    cases checked : checkPathPolicy request.relativePath request.policy with
    | error error => simp [authorized, checked, bind, Except.bind] at plans
    | ok found =>
      simp only [authorized, checked, bind, Except.bind] at plans
      obtain ⟨same, free, within⟩ := checkPathPolicy_ok.mp checked
      split at plans
      · cases plans
      next there =>
        cases plans
        exact ⟨same, free, within, by simp [there]⟩
      next absent =>
        split at plans
        · cases plans
        · cases plans
          exact ⟨same, free, within, by simp [absent]⟩

theorem planPatch_new (mode : request.autonomyMode = .autoDispatchLimited)
    (creates : request.policy.allowNewFiles = true)
    (free : matchesAny dot (normalize request.relativePath) request.policy.deniedPaths = false)
    (within : matchesAny dot (normalize request.relativePath) request.policy.allowedPaths = true)
    (absent : workspace.tree.stat workspace.root (pathMoves (normalize request.relativePath)) = none) :
    ∃ planned, planPatch hash request workspace = .ok (normalize request.relativePath, planned) := by
  have checked : checkPathPolicy request.relativePath request.policy = .ok (normalize request.relativePath) :=
    checkPathPolicy_ok.mpr ⟨rfl, free, within⟩
  have authorized : authorizeToolCall .applyPatch request.autonomyMode request.approvalGranted =
      .ok .constrained := by
    rw [mode]
    rfl
  simp only [planPatch, authorized, checked, bind, Except.bind, absent, creates, not_true_eq_false, if_false]
  exact ⟨_, rfl⟩

theorem reachWrite_of {data : Bytes} {tree : Tree} (encoded : request.data = some data)
    (made : workspace.tree.makeDirectories workspace.root (pathMoves norm).dropLast = some tree) :
    reachWrite request workspace norm = .ok ⟨locate workspace.root (pathMoves norm), data, tree⟩ := by
  simp only [reachWrite, encoded, made]
  rfl

theorem reachWrite_ok (reached : reachWrite request workspace norm = .ok call) :
    call.target = locate workspace.root (pathMoves norm) ∧
      ∃ tree, workspace.tree.makeDirectories workspace.root (pathMoves norm).dropLast = some tree := by
  unfold reachWrite at reached
  cases encoded : request.data with
  | none => simp [encoded] at reached
  | some data =>
    cases made : workspace.tree.makeDirectories workspace.root (pathMoves norm).dropLast with
    | none => simp [encoded, made] at reached
    | some tree =>
      simp only [encoded, made] at reached
      cases reached
      exact ⟨rfl, tree, rfl⟩

end Call

section Confinement

/-- The target lies below the root of the workspace, under an allowed glob and under no denied
one. The double star of a glob stands for any characters. -/
def Confined (policy : PathPolicy) (root target : List (List Char)) : Prop :=
  ∃ names ≠ [], target = root ++ names ∧ matchesAny (fun _ => true)
    (pathText names) policy.allowedPaths = true ∧
    matchesAny (fun _ => true) (pathText names) policy.deniedPaths = false

/-- No patch of this path leaves its policy: it is denied always, or is never written, or the
text that the globs are matched against is that of the target, without line breaks. -/
def Harmless (relativePath : String) : Prop :=
  let norm := normalize relativePath
  matchesAny dot norm mandatoryDeniedPaths = true ∨ (∃ name ∈ (pathNames norm).dropLast, '\x00' ∈ name) ∨
    (pathNames norm ≠ [] ∧ ∀ name ∈ pathNames norm, name = ['.', '.']) ∨
      (['.', '.'] ∉ pathNames norm ∧ '\n' ∉ norm)

variable {names : List (List Char)} {root : List (List Char)}

theorem pathMoves_dropLast (norm : List Char) :
    (pathMoves norm).dropLast = (pathNames norm).dropLast.map moveOf := by
  rw [pathMoves, List.map_dropLast]

theorem moveOf_into {name : List Char} (forward : name ≠ ['.', '.']) : moveOf name = .into name :=
  if_neg forward

theorem mem_map_moveOf {name : List Char} :
    .into name ∈ names.map moveOf ↔ name ∈ names ∧ name ≠ ['.', '.'] := by
  simp only [List.mem_map, moveOf]
  constructor
  · intro ⟨other, member, same⟩
    split at same
    · cases same
    next forward =>
      cases same
      exact ⟨member, forward⟩
  · intro ⟨member, forward⟩
    exact ⟨name, member, if_neg forward⟩

theorem locate_forward (forward : ['.', '.'] ∉ names) : locate root (names.map moveOf) = root ++ names := by
  have same : names.map moveOf = names.map .into :=
    List.map_congr_left fun name member => moveOf_into fun up => forward (up ▸ member)
  rw [same, locate_into]

theorem Harmless.confined {hash : Bytes → String} {request : PatchRequest} {workspace : Workspace}
    {target : List (List Char)}
    (harmless : Harmless request.relativePath) (reaches : ReachesWrite hash request workspace target) :
    Confined request.policy workspace.root target := by
  obtain ⟨norm, planned, call, plans, reached, rfl⟩ := reaches
  obtain ⟨rfl, free, within, regular⟩ := planPatch_ok plans
  obtain ⟨target, tree, made⟩ := reachWrite_ok reached
  rcases harmless with denied | ⟨name, member, broken⟩ | ⟨_, upwards⟩ | ⟨forward, plain⟩
  · rw [matchesAny_mono request.policy.mandatory denied] at free
    cases free
  · rw [pathMoves_dropLast] at made
    have forward : name ≠ ['.', '.'] := by
      intro up
      subst up
      exact absurd broken (by decide)
    have usable := FileTree.makeDirectories_usable made (mem_map_moveOf.mpr ⟨member, forward⟩)
    exact absurd broken usable.2.2.2.2
  · refine absurd (FileTree.stat_up workspace.directory ?_) regular
    intro move member
    obtain ⟨name, listed, rfl⟩ := List.mem_map.mp member
    exact if_pos (upwards name listed)
  · refine ⟨pathNames (normalize request.relativePath), ?_, ?_, ?_, ?_⟩
    · intro none
      apply regular
      rw [pathMoves, none]
      exact workspace.directory
    · rw [target, pathMoves, locate_forward forward]
    · rw [← normalize_eq, ← matchesAny_dot plain]
      exact within
    · rw [← normalize_eq, ← matchesAny_dot plain]
      exact free

theorem exists_fresh (names : List (List Char)) : ∃ fresh, Usable fresh ∧ fresh ∉ names := by
  refine ⟨List.replicate (names.flatten.length + 1) 'w', ?_, fun member => ?_⟩
  · have only (c : Char) (other : c ≠ 'w') : c ∉ List.replicate (names.flatten.length + 1) 'w' :=
      fun inside =>
      other (List.eq_of_mem_replicate inside)
    refine ⟨by simp, ?_, ?_, only '/' (by decide), only '\x00' (by decide)⟩
    · intro same
      exact only '.' (by decide) (same ▸ List.mem_singleton_self _)
    · intro same
      exact only '.' (by decide) (same ▸ List.mem_cons_self)
  · have short := (List.sublist_flatten_of_mem member).length_le
    rw [List.length_replicate] at short
    omega

/-- The patch of a path under the policy of its own shape. -/
def attempt (relativePath : String) (denied : List String) : PatchRequest :=
  { relativePath, data := some [], policy := PathPolicy.validate [shape (normalize relativePath)] denied true,
    autonomyMode := .autoDispatchLimited, approvalGranted := false, stationRunId := "station_run_1", effectId := "effect_1" }

theorem attempt_reaches (hash : Bytes → String) {relativePath : String} {denied : List String}
    (free : matchesAny dot (normalize relativePath) (ensureMandatoryDenied denied) = false)
    (sound : ∀ name ∈ (pathNames (normalize relativePath)).dropLast, '\x00' ∉ name)
    (forward : ∃ name ∈ pathNames (normalize relativePath), name ≠ ['.', '.']) :
    ∃ workspace : Workspace, ReachesWrite hash (attempt relativePath denied) workspace
      (locate workspace.root (pathMoves (normalize relativePath))) := by
  obtain ⟨fresh, usable, apart⟩ := exists_fresh (pathNames (normalize relativePath))
  obtain ⟨name, member, named⟩ := forward
  have valid : ∀ name ∈ [fresh], Usable name := fun name single => (List.mem_singleton.mp single) ▸ usable
  let tree : Tree := FileTree.bare [fresh] valid
  let workspace : Workspace := ⟨tree, [fresh], if_pos (List.prefix_refl _)⟩
  have absent : tree.stat [fresh] (pathMoves (normalize relativePath)) = none := by
    apply FileTree.stat_bare (List.prefix_refl _) ?_ (mem_map_moveOf.mpr ⟨member, named⟩)
    intro other listed single
    exact apart (List.mem_singleton.mp single ▸ (mem_map_moveOf.mp listed).1)
  have within : matchesAny dot (normalize relativePath) [shape (normalize relativePath)] = true := by
    refine List.any_eq_true.mpr ⟨_, List.mem_singleton_self _, (fullmatch_shape dot).mpr ?_⟩
    exact List.forall₂_same.mpr fun _ _ => Iff.rfl
  obtain ⟨planned, plans⟩ : ∃ planned, planPatch hash (attempt relativePath denied) workspace =
      .ok (normalize relativePath, planned) := planPatch_new rfl rfl free within absent
  have directories : ∀ path, tree.node path = none ∨ tree.node path = some .directory := by
    intro path
    change (if path <+: [fresh] then _ else _) = _ ∨ (if path <+: [fresh] then _ else _) = _
    split <;> simp
  obtain ⟨after, made⟩ : ∃ after,
      tree.makeDirectories [fresh] (pathMoves (normalize relativePath)).dropLast = some after := by
    apply FileTree.makeDirectories_of_no_file directories workspace.directory
    intro other listed
    rw [pathMoves_dropLast] at listed
    obtain ⟨inside, down⟩ := mem_map_moveOf.mp listed
    obtain ⟨slash, full, dotted⟩ := mem_pathNames (List.mem_of_mem_dropLast inside)
    exact ⟨full, dotted, down, slash, sound other inside⟩
  exact ⟨workspace, normalize relativePath, planned, _, plans, reachWrite_of rfl made, rfl⟩

theorem splitOn_pathText (proper : ∀ name ∈ names, '/' ∉ name) (some : names ≠ []) :
    (pathText names).splitOn '/' = names := by
  rw [pathText, if_neg some, List.splitOn_intercalate '/' proper some]

/-- A path that goes upwards ends with fewer names than it has, and its shape shows how many. -/
theorem not_confined_upwards {relativePath : String} {denied : List String}
    (proper : ∀ name ∈ root, '/' ∉ name)
    (upwards : ['.', '.'] ∈ pathNames (normalize relativePath)) :
    ¬ Confined (attempt relativePath denied).policy root (locate root (pathMoves (normalize relativePath))) := by
  intro ⟨rest, full, target, allowed, _⟩
  have climbs : .up ∈ pathMoves (normalize relativePath) := List.mem_map.mpr ⟨_, upwards, if_pos rfl⟩
  have fewer : (locate root (pathMoves (normalize relativePath))).length < _ := locate_length_lt climbs
  have clean : ∀ name ∈ rest, '/' ∉ name := by
    intro name member
    have reached : name ∈ locate root (pathMoves (normalize relativePath)) :=
      target ▸ List.mem_append_right root member
    rcases mem_locate reached with above | below
    · exact proper name above
    · exact (mem_pathNames (mem_map_moveOf.mp below).1).1
  have alike : List.Forall₂ (fun c d => c = '/' ↔ d = '/') (normalize relativePath) (pathText rest) := by
    obtain ⟨pattern, single, matched⟩ := List.any_eq_true.mp allowed
    rw [List.mem_singleton.mp single] at matched
    exact (fullmatch_shape _).mp matched
  have counts := length_splitOn_of_shape alike
  rw [normalize_eq,
    splitOn_pathText (fun name member => (mem_pathNames member).1) (List.ne_nil_of_mem upwards),
    splitOn_pathText clean full] at counts
  rw [target, List.length_append, pathMoves, List.length_map] at fewer
  omega

theorem ensureMandatoryDenied_nil : ensureMandatoryDenied [] = mandatoryDeniedPaths := by decide +kernel

theorem ensureMandatoryDenied_everything :
    ensureMandatoryDenied ["**"] = "**" :: mandatoryDeniedPaths := by
  decide +kernel

theorem exists_unconfined (hash : Bytes → String) {relativePath : String}
    (harmful : ¬ Harmless relativePath) :
    ∃ request workspace target, request.relativePath = relativePath ∧
      ReachesWrite hash request workspace target ∧
      ¬ Confined request.policy workspace.root target := by
  simp only [Harmless, not_or, not_exists, not_and, not_forall] at harmful
  obtain ⟨open_, sound, down, hidden⟩ := harmful
  have sound : ∀ name ∈ (pathNames (normalize relativePath)).dropLast, '\x00' ∉ name := sound
  by_cases upwards : ['.', '.'] ∈ pathNames (normalize relativePath)
  · obtain ⟨name, member, forward⟩ := down (List.ne_nil_of_mem upwards)
    have free : matchesAny dot (normalize relativePath) (ensureMandatoryDenied []) = false := by
      rw [ensureMandatoryDenied_nil]
      simpa using open_
    obtain ⟨workspace, reaches⟩ := attempt_reaches hash free sound ⟨name, member, forward⟩
    refine ⟨attempt relativePath [], workspace, _, rfl, reaches, not_confined_upwards ?_ upwards⟩
    intro name member
    exact (workspace.tree.named workspace.root (by simp [workspace.directory]) name member).2.2.2.1
  · have broken : '\n' ∈ normalize relativePath := by simpa using hidden upwards
    have forward : ∃ name ∈ pathNames (normalize relativePath), name ≠ ['.', '.'] := by
      cases names : pathNames (normalize relativePath) with
      | nil =>
        rw [normalize_eq, names] at broken
        exact absurd broken (by decide)
      | cons name rest => exact ⟨name, List.mem_cons_self, fun up => upwards (by simp [names, up])⟩
    have free : matchesAny dot (normalize relativePath) (ensureMandatoryDenied ["**"]) = false := by
      have missed : (normalize relativePath).all dot = false :=
        List.all_eq_false.mpr ⟨'\n', broken, by decide⟩
      rw [ensureMandatoryDenied_everything, matchesAny, List.any_cons, fullmatch_everything, missed,
        Bool.false_or]
      exact Bool.not_eq_true _ ▸ open_
    obtain ⟨workspace, reaches⟩ := attempt_reaches hash free sound forward
    refine ⟨attempt relativePath ["**"], workspace, _, rfl, reaches, fun ⟨rest, _, _, _, undenied⟩ => ?_⟩
    have listed : "**" ∈ ensureMandatoryDenied ["**"] := by
      rw [ensureMandatoryDenied_everything]
      exact List.mem_cons_self
    apply List.any_eq_false.mp undenied "**" listed
    rw [fullmatch_everything]
    exact List.all_eq_true.mpr fun _ _ => rfl

/-- A path is written inside its policy, whatever the policy and the workspace, exactly when it
is harmless. -/
theorem patch_confined_iff (hash : Bytes → String) (relativePath : String) :
    (∀ (request : PatchRequest) (workspace : Workspace) (target : List (List Char)),
      request.relativePath = relativePath →
        ReachesWrite hash request workspace target → Confined request.policy workspace.root target) ↔
      Harmless relativePath := by
  constructor
  · intro law
    by_contra harmful
    obtain ⟨request, workspace, target, same, reaches, escapes⟩ := exists_unconfined hash harmful
    exact escapes (law request workspace target same reaches)
  · intro harmless request workspace target same reaches
    subst same
    exact harmless.confined reaches

/-- A workspace `/w` with one directory, `src`. -/
def sources : Workspace :=
  ⟨FileTree.bare ["w".toList, "src".toList] (by decide +kernel), ["w".toList], by decide +kernel⟩

/-- A policy for the sources only, and a patch of the file of secrets beside them. -/
def dotted : PatchRequest :=
  { relativePath := "src/../.env", data := some [], policy := PathPolicy.validate ["src/**"] [] true,
    autonomyMode := .autoDispatchLimited, approvalGranted := false, stationRunId := "station_run_1", effectId := "effect_1" }

theorem dotted_patch_escapes : ¬ (∀ (hash : Bytes → String) (request : PatchRequest) (workspace : Workspace)
    (target : List (List Char)), ReachesWrite hash request workspace target →
      Confined request.policy workspace.root target) := by
  intro law
  obtain ⟨planned, plans⟩ : ∃ planned,
      planPatch (fun _ => "") dotted sources = .ok (normalize "src/../.env", planned) :=
    planPatch_new rfl rfl (by decide +kernel) (by decide +kernel) (by decide +kernel)
  obtain ⟨tree, made⟩ := Option.isSome_iff_exists.mp (show (sources.tree.makeDirectories sources.root
    (pathMoves (normalize "src/../.env")).dropLast).isSome = true by decide +kernel)
  have written : locate sources.root (pathMoves (normalize "src/../.env")) = sources.root ++
      [".env".toList] := by
    decide +kernel
  obtain ⟨names, _, target, allowed, _⟩ := law (fun _ => "") dotted sources _
    ⟨normalize "src/../.env", planned, _, plans, reachWrite_of rfl made, rfl⟩
  rw [written, List.append_cancel_left_eq] at target
  subst target
  exact absurd allowed (by decide +kernel)

end Confinement
end TokenPak.Dispatch.Patch
