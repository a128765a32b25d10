import Mathlib.Data.Rat.Floor
import TokenPak.Proxy.ForecastCaches

/-! The caches are transparent. Rows that were read together stand together in the log of their
ledger, so the greatest id and the number of rows tell them apart; token counts are whole, so a
rounded signature tells participants apart. -/

namespace TokenPak.Proxy.ForecastCaches
open Library ForecastCalibration

section Fingerprints
variable {log rows other : List Row}

abbrev Increasing (log : List Row) : Prop := log.Pairwise fun earlier later => earlier.id < later.id

theorem Increasing.inj (increasing : Increasing log) {i j : Nat} (inside : i < log.length)
    (also : j < log.length)
    (same : log[i].id = log[j].id) : i = j := by
  have ordered := List.pairwise_iff_getElem.mp increasing
  rcases Nat.lt_trichotomy i j with before | equal | after
  · have less := ordered i j inside also before
    omega
  · exact equal
  · have less := ordered j i also inside after
    omega

theorem max_id (increasing : Increasing rows) (last : Row) (ends : rows.getLast? = some last) :
    (rows.map Row.id).max? = some last.id := by
  obtain ⟨front, rfl⟩ := List.getLast?_eq_some_iff.mp ends
  rw [List.max?_eq_some_iff]
  constructor
  · exact List.mem_map.mpr ⟨last, by simp, rfl⟩
  · intro id member
    obtain ⟨row, inside, rfl⟩ := List.mem_map.mp member
    rcases List.mem_append.mp inside with early | late
    · exact Int.le_of_lt ((List.pairwise_append.mp increasing).2.2 row early last List.mem_cons_self)
    · rw [List.mem_singleton.mp late]

/-- Two groups of rows that stand together in one log are the same when their fingerprints are. -/
theorem ledgerFingerprint_inj (increasing : Increasing log) (inside : rows <:+: log) (also : other <:+: log)
    (same : ledgerFingerprint rows = ledgerFingerprint other) : rows = other := by
  have lengths : rows.length = other.length := congrArg Prod.snd same
  have ids : (rows.map Row.id).max?.getD 0 = (other.map Row.id).max?.getD 0 := congrArg Prod.fst same
  obtain ⟨start, fits, placed⟩ := List.infix_iff_getElem?.mp inside
  obtain ⟨begins, fits_other, placed_other⟩ := List.infix_iff_getElem?.mp also
  by_cases empty : rows.length = 0
  · have empty_other : other.length = 0 := by omega
    rw [List.length_eq_zero_iff.mp empty, List.length_eq_zero_iff.mp empty_other]
  · have final : rows.length - 1 < rows.length := by omega
    have final_other : rows.length - 1 < other.length := by omega
    have last : rows.getLast? = some rows[rows.length - 1] := by
      rw [List.getLast?_eq_getElem?, List.getElem?_eq_getElem final]
    have last_other : other.getLast? = some other[rows.length - 1] := by
      rw [List.getLast?_eq_getElem?, ← lengths, List.getElem?_eq_getElem final_other]
    rw [max_id (increasing.sublist inside.sublist) _ last,
      max_id (increasing.sublist also.sublist) _ last_other] at ids
    have here := placed _ final
    have there := placed_other _ final_other
    rw [List.getElem?_eq_some_iff] at here there
    obtain ⟨bound, here⟩ := here
    obtain ⟨bound_other, there⟩ := there
    have places := Increasing.inj increasing bound bound_other (by rw [here, there]; exact ids)
    have starts : start = begins := by omega
    apply List.ext_getElem lengths
    intro i inside_rows inside_other
    have row := placed i inside_rows
    rw [starts, placed_other i inside_other] at row
    exact (Option.some.inj row).symm

end Fingerprints

section Signatures
variable {F : Type} [Field F] [LinearOrder F] [IsStrictOrderedRing F] [FloorRing F]

theorem roundHalfEven_intCast (count : Int) : roundHalfEven (count : F) = count := by
  have close : (0 : F) < 1 / 2 := by norm_num
  simp only [roundHalfEven, Int.floor_intCast, sub_self, if_pos close]

theorem Whole.round3 {cost : F} (whole : Whole cost) : round3 cost = cost := by
  obtain ⟨count, rfl⟩ := whole
  have scaled : (count : F) * 1000 = ((count * 1000 : Int) : F) := by simp
  rw [ForecastCaches.round3, scaled, roundHalfEven_intCast, ← scaled]
  exact mul_div_cancel_right₀ _ (by norm_num)

theorem map_round3 {costs : List F} (whole : ∀ cost ∈ costs, Whole cost) : costs.map round3 = costs := by
  conv_rhs => rw [← List.map_id costs]
  exact List.map_congr_left fun cost member => (whole cost member).round3

theorem signature_injective : Function.Injective (Participant.signature (F := F)) := by
  intro first second same
  obtain ⟨model, effort, ⟨endedAt, costs⟩, whole⟩ := first
  obtain ⟨model', effort', ⟨endedAt', costs'⟩, whole'⟩ := second
  have rounded : costs.map round3 = costs'.map round3 := congrArg Signature.turnCosts same
  have equal : costs = costs' := (map_round3 whole).symm.trans (rounded.trans (map_round3 whole'))
  cases (congrArg Signature.model same : model = model')
  cases (congrArg Signature.effort same : effort = effort')
  cases (congrArg Signature.endedAt same : endedAt = endedAt')
  cases equal
  rfl

theorem cacheKey_inj {path path' : Option String} {key key' : String × String}
    {cell cell' pool pool' : List (Participant F)}
    (same : cacheKey path key cell pool = cacheKey path' key' cell' pool') : cell = cell' ∧ pool = pool' :=
  ⟨signature_injective.list_map (congrArg ReadinessCacheKey.cell same),
    signature_injective.list_map (congrArg ReadinessCacheKey.pool same)⟩

end Signatures

section Ledgers
variable {ledger : Ledger} {rows : List Row}

theorem Ledger.rows_infix (ledger : Ledger) : ledger.rows <:+: ledger.log := (List.drop_suffix _ _).isInfix

theorem Ledger.infix_append (inside : rows <:+: ledger.log) (row : Row) :
    rows <:+: (ledger.append row).log := by
  unfold Ledger.append
  split
  · exact inside.trans (List.prefix_append _ _).isInfix
  · exact inside

end Ledgers

section Runs
variable {F : Type} [Field F] [LinearOrder F] [FloorRing F]
variable {math : Math F} {parseTs : ParseTs} {state : State F} {call : Call F}

/-- What a question is answered from a snapshot without any cache. -/
def fresh (math : Math F) (parseTs : ParseTs) : Question F → Option (List Row) → Answer F
  | .history _ _ _, none => .history (.ok [])
  | .history _ now excludeSession, some rows =>
      .history (historyOf now excludeSession <$> parseCorpus parseTs rows)
  | .readiness _ _ cell pool, _ => .readiness (readinessOf math cell pool)

structure CorpusSound (parseTs : ParseTs) (log : List Row) (fingerprint : Int × Nat)
    (corpus : List (CorpusEntry F)) : Prop where
  parsed : ∃ rows, rows <:+: log ∧ fingerprint = ledgerFingerprint rows ∧
    parseCorpus parseTs rows = .ok corpus

def PhaseSound (math : Math F) (parseTs : ParseTs) (question : Question F)
    (snapshot : Option (List Row)) : Phase F → Prop
  | .asked => True
  | .parsed corpus =>
      ∃ path now excludeSession rows, question = .history path now excludeSession ∧
        snapshot = some rows ∧
      parseCorpus parseTs rows = .ok corpus
  | .assessed readiness =>
      ∃ path key cell pool, question = .readiness path key cell pool ∧
        readinessOf math cell pool = .ok readiness
  | .done answer => answer = fresh math parseTs question snapshot

def SnapshotSound (ledgers : String → Ledger) (call : Call F) : Prop :=
  ∀ path now excludeSession rows, call.question = .history path now excludeSession →
    call.snapshot = some rows →
    rows <:+: (ledgers (path.getD "")).log

structure CallSound (math : Math F) (parseTs : ParseTs) (ledgers : String → Ledger)
    (call : Call F) : Prop where
  snapshot : SnapshotSound ledgers call
  phase : PhaseSound math parseTs call.question call.snapshot call.phase

structure Sound (math : Math F) (parseTs : ParseTs) (state : State F) : Prop where
  corpus : ∀ path entry, state.corpusCache.get path = some entry →
    CorpusSound parseTs (state.ledgers path).log entry.1 entry.2
  readiness : ∀ key readiness, state.readinessCache.get key = some readiness →
    ∃ path name cell pool, key = cacheKey path name cell pool ∧ readinessOf math cell pool = .ok readiness
  calls : ∀ call ∈ state.calls, CallSound math parseTs state.ledgers call

theorem Sound.start (ledgers : String → Ledger) : Sound math parseTs (State.start ledgers : State F) :=
  ⟨by simp [State.start, Dict.empty, Dict.get], by simp [State.start, Dict.empty, Dict.get], by simp [State.start]⟩

theorem Sound.edit (sound : Sound math parseTs state) (path : String) (change : Ledger → Ledger)
    (keeps : ∀ rows, rows <:+: (state.ledgers path).log → rows <:+: (change (state.ledgers path)).log) :
    Sound math parseTs (state.edit path change) := by
  have grows : ∀ other rows, rows <:+: (state.ledgers other).log →
      rows <:+: ((state.edit path change).ledgers other).log := by
    intro other rows inside
    by_cases same : other = path
    · subst same
      simpa [State.edit] using keeps rows inside
    · simpa [State.edit, Function.update_of_ne same] using inside
  constructor
  · intro other entry found
    obtain ⟨rows, inside, fingerprint, parsed⟩ := (sound.corpus other entry found).parsed
    exact ⟨rows, grows other rows inside, fingerprint, parsed⟩
  · exact sound.readiness
  · intro call member
    obtain ⟨snapshot, phase⟩ := sound.calls call member
    exact ⟨fun path now excludeSession rows asked seen =>
      grows _ rows (snapshot path now excludeSession rows asked seen), phase⟩

omit [LinearOrder F] [FloorRing F] in
theorem snapshotSound_ask (state : State F) (question : Question F) :
    SnapshotSound state.ledgers ⟨question, state.snapshot question, .asked⟩ := by
  intro path now excludeSession rows asked seen
  cases (asked : question = _)
  simp only [State.snapshot] at seen
  split at seen
  · cases seen
    exact Ledger.rows_infix _
  · cases seen

theorem Sound.ask (sound : Sound math parseTs state) (question : Question F) :
    Sound math parseTs { state with calls := state.calls ++ [⟨question, state.snapshot question, .asked⟩] } := by
  refine ⟨sound.corpus, sound.readiness, ?_⟩
  intro call member
  rcases List.mem_append.mp member with old | new
  · exact sound.calls call old
  · rw [List.mem_singleton.mp new]
    exact ⟨snapshotSound_ask state question, trivial⟩

theorem Sound.withPhase (sound : Sound math parseTs state) {index : Nat}
    (member : call ∈ state.calls) {phase : Phase F}
    (right : PhaseSound math parseTs call.question call.snapshot phase) :
    Sound math parseTs (state.withPhase index call phase) := by
  refine ⟨sound.corpus, sound.readiness, ?_⟩
  intro other changed
  rcases List.mem_or_eq_of_mem_set changed with old | new
  · exact sound.calls other old
  · rw [new]
    exact ⟨(sound.calls call member).snapshot, right⟩

/-- A corpus that is kept under the fingerprint of these rows is theirs. -/
theorem Sound.corpusHit (sound : Sound math parseTs state) {path : String} {rows : List Row}
    (inside : rows <:+: (state.ledgers path).log)
    {corpus : List (CorpusEntry F)} (hit : state.corpusHit path rows = some corpus) :
    parseCorpus parseTs rows = .ok corpus := by
  obtain ⟨entry, kept, rfl⟩ := Option.map_eq_some_iff.mp hit
  obtain ⟨found, matched⟩ := Option.filter_eq_some_iff.mp kept
  obtain ⟨old, stood, fingerprint, parsed⟩ := (sound.corpus path entry found).parsed
  have same : old = rows :=
    ledgerFingerprint_inj (state.ledgers path).increasing stood inside (fingerprint.symm.trans (of_decide_eq_true matched))
  exact same ▸ parsed

theorem Sound.consultCorpus (sound : Sound math parseTs state) {path : Option String} {now : Int}
    {excludeSession : String}
    {snapshot : Option (List Row)}
    (inside : ∀ rows, snapshot = some rows → rows <:+: (state.ledgers (path.getD "")).log) :
    PhaseSound math parseTs (.history path now excludeSession) snapshot
      (consultCorpus parseTs state (path.getD "") now excludeSession snapshot) := by
  cases snapshot with
  | none => exact rfl
  | some rows =>
    cases hit : state.corpusHit (path.getD "") rows with
    | some corpus =>
      have parsed := sound.corpusHit (inside rows rfl) hit
      simp [ForecastCaches.consultCorpus, PhaseSound, fresh, hit, parsed]
    | none =>
      cases parsed : parseCorpus (F := F) parseTs rows with
      | ok corpus => simp [ForecastCaches.consultCorpus, PhaseSound, hit, parsed]
      | error raised => simp [ForecastCaches.consultCorpus, PhaseSound, fresh, hit, parsed]

theorem get_remember {Key Value : Type} [DecidableEq Key] {limit : Nat} {cache : Dict Key Value}
    {key other : Key} {value held : Value}
    (found : (remember limit cache key value).get other = some held) :
    other = key ∧ held = value ∨ cache.get other = some held := by
  unfold remember at found
  by_cases same : other = key
  · subst same
    rw [Dict.get_set_self] at found
    exact .inl ⟨rfl, (Option.some.inj found).symm⟩
  · rw [Dict.get_set_of_ne same] at found
    right
    split at found
    · exact Dict.get_of_dropOldest found
    · exact found

theorem Sound.keepCorpus (sound : Sound math parseTs state) {path : String} {rows : List Row}
    (inside : rows <:+: (state.ledgers path).log)
    {corpus : List (CorpusEntry F)} (parsed : parseCorpus parseTs rows = .ok corpus) :
    Sound math parseTs
      { state with corpusCache := remember corpusCacheMax state.corpusCache path (ledgerFingerprint rows, corpus) } := by
  refine ⟨?_, sound.readiness, sound.calls⟩
  intro other entry found
  rcases get_remember found with ⟨same, kept⟩ | old
  · subst same kept
    exact ⟨rows, inside, rfl, parsed⟩
  · exact sound.corpus other entry old

theorem Sound.keepReadiness (sound : Sound math parseTs state) (path : Option String) (key : String × String)
    {cell pool : List (Participant F)} {readiness : CellReadiness F}
    (computed : readinessOf math cell pool = .ok readiness) :
    Sound math parseTs
      { state with readinessCache := remember readinessCacheMax state.readinessCache (cacheKey path key cell pool) readiness } := by
  refine ⟨sound.corpus, ?_, sound.calls⟩
  intro other held found
  rcases get_remember found with ⟨same, kept⟩ | old
  · subst same kept
    exact ⟨path, key, cell, pool, rfl, computed⟩
  · exact sound.readiness other held old

theorem Sound.keep (sound : Sound math parseTs state) (index : Nat) :
    Sound math parseTs (state.keep index) := by
  unfold State.keep
  split
  · rename_i call found
    have member := List.mem_of_getElem? found
    obtain ⟨snapshot, phase⟩ := sound.calls call member
    split
    · rename_i corpus path now excludeSession reached asked
      rw [reached] at phase
      obtain ⟨path', now', excludeSession', rows, same, seen, parsed⟩ := phase
      cases asked.symm.trans same
      have inside := snapshot path now excludeSession rows asked seen
      rw [seen]
      apply (sound.keepCorpus inside parsed).withPhase member
      simp [PhaseSound, fresh, asked, seen, parsed]
    · rename_i readiness path key cell pool reached asked
      rw [reached] at phase
      obtain ⟨path', key', cell', pool', same, computed⟩ := phase
      cases asked.symm.trans same
      apply (sound.keepReadiness path key computed).withPhase member
      simp [PhaseSound, fresh, asked, computed]
    · exact sound
  · exact sound

/-- The call at a place was asked this question and saw this snapshot. -/
def Asked (index : Nat) (question : Question F) (snapshot : Option (List Row)) (state : State F) : Prop :=
  ∃ call, state.calls[index]? = some call ∧ call.question = question ∧ call.snapshot = snapshot

section Places
variable {index place : Nat} {question : Question F} {snapshot : Option (List Row)}

omit [LinearOrder F] [FloorRing F] in
theorem Asked.withPhase (asked : Asked index question snapshot state)
    (found : state.calls[place]? = some call) (phase : Phase F) :
    Asked index question snapshot (state.withPhase place call phase) := by
  obtain ⟨held, there, same_question, same_snapshot⟩ := asked
  by_cases same : place = index
  · subst same
    have equal : held = call := Option.some.inj (there.symm.trans found)
    subst equal
    have inside : place < state.calls.length := (List.getElem?_eq_some_iff.mp there).1
    exact ⟨{ held with phase }, by simp [State.withPhase, inside], same_question, same_snapshot⟩
  · exact ⟨held, by simpa [State.withPhase, List.getElem?_set_ne same] using there, same_question, same_snapshot⟩

theorem Asked.act (asked : Asked index question snapshot state) (action : Action F) :
    Asked index question snapshot (act math parseTs state action) := by
  cases action with
  | append path row => exact asked
  | prune path count => exact asked
  | setPresent path present => exact asked
  | ask other =>
    obtain ⟨call, there, same⟩ := asked
    have inside : index < state.calls.length := (List.getElem?_eq_some_iff.mp there).1
    exact ⟨call, by simpa [ForecastCaches.act, List.getElem?_append_left inside] using there, same⟩
  | consult place =>
    simp only [ForecastCaches.act, State.consult]
    split
    · rename_i call found
      split
      · exact asked.withPhase found _
      · exact asked
    · exact asked
  | keep place =>
    simp only [ForecastCaches.act, State.keep]
    split
    · rename_i call found
      split
      · apply Asked.withPhase
        · exact asked
        · exact found
      · apply Asked.withPhase
        · exact asked
        · exact found
      · exact asked
    · exact asked

theorem asked_ask (state : State F) (question : Question F) :
    Asked state.calls.length question (state.snapshot question)
    (ForecastCaches.act math parseTs state (.ask question)) :=
  ⟨⟨question, state.snapshot question, .asked⟩, by simp [ForecastCaches.act], rfl, rfl⟩

theorem Asked.run (asked : Asked index question snapshot state) (actions : List (Action F)) :
    Asked index question snapshot (Machine.run (ForecastCaches.act math parseTs) state actions) :=
  Machine.run_invariant (fun _ action kept => kept.act action) asked

end Places

theorem consulted_cases (math : Math F) (parseTs : ParseTs) (state : State F) (call : Call F) :
    (∃ answer, consulted math parseTs state call = .done answer) ∨
      (∃ corpus path now excludeSession, consulted math parseTs state call = .parsed corpus ∧
        call.question = .history path now excludeSession) ∨
      ∃ readiness path key cell pool, consulted math parseTs state call = .assessed readiness ∧
        call.question = .readiness path key cell pool := by
  cases asked : call.question with
  | history path now excludeSession =>
    simp only [consulted, asked]
    cases call.snapshot with
    | none => exact .inl ⟨_, rfl⟩
    | some rows =>
      cases hit : state.corpusHit (path.getD "") rows with
      | some corpus =>
          exact .inl ⟨.history (.ok (historyOf now excludeSession corpus)),
            by simp [consultCorpus, hit]⟩
      | none =>
        cases parsed : parseCorpus (F := F) parseTs rows with
        | ok corpus =>
            exact .inr (.inl ⟨corpus, path, now, excludeSession,
              by simp [consultCorpus, hit, parsed], rfl⟩)
        | error raised => exact .inl ⟨.history (.error raised), by simp [consultCorpus, hit, parsed]⟩
  | readiness path key cell pool =>
    simp only [consulted, asked]
    cases hit : state.readinessCache.get (cacheKey path key cell pool) with
    | some readiness => exact .inl ⟨.readiness (.ok readiness), by simp [consultReadiness, hit]⟩
    | none =>
      cases computed : readinessOf math cell pool with
      | ok readiness =>
          exact .inr (.inr ⟨readiness, path, key, cell, pool,
            by simp [consultReadiness, hit, computed], rfl⟩)
      | error raised => exact .inl ⟨.readiness (.error raised), by simp [consultReadiness, hit, computed]⟩

omit [LinearOrder F] [FloorRing F] in
theorem State.getElem_withPhase {index : Nat} (found : state.calls[index]? = some call) (phase : Phase F) :
    (state.withPhase index call phase).calls[index]? = some { call with phase } := by
  have inside : index < state.calls.length := (List.getElem?_eq_some_iff.mp found).1
  simp [State.withPhase, inside]

omit [LinearOrder F] [FloorRing F] in
theorem State.phase_withPhase {index : Nat} {held : Call F}
    (found : state.calls[index]? = some held) (call : Call F) (phase : Phase F) :
    (state.withPhase index call phase).phase index = some phase := by
  have inside : index < state.calls.length := (List.getElem?_eq_some_iff.mp found).1
  simp [State.withPhase, State.phase, inside]

/-- Two steps answer a call, whatever the caches hold. -/
theorem State.returns {index : Nat} (found : state.calls[index]? = some call) (asked : call.phase = .asked) :
    ∃ answer, ((state.consult math parseTs index).keep index).phase index = some (.done answer) := by
  have consulted_state : state.consult math parseTs index =
      state.withPhase index call (consulted math parseTs state call) := by
    simp [State.consult, found, asked]
  have there := State.getElem_withPhase found (consulted math parseTs state call)
  rw [consulted_state]
  rcases consulted_cases math parseTs state call with
    ⟨answer, done⟩ | ⟨corpus, path, now, excludeSession, parsed, question⟩ | ⟨readiness, path, key,
      cell, pool, assessed, question⟩
  · rw [done] at there ⊢
    exact ⟨answer, by simp [State.keep, State.phase, there]⟩
  · rw [parsed] at there ⊢
    refine ⟨.history (.ok (historyOf now excludeSession corpus)), ?_⟩
    simp only [State.keep, there, question]
    apply State.phase_withPhase
    exact there
  · rw [assessed] at there ⊢
    refine ⟨.readiness (.ok readiness), ?_⟩
    simp only [State.keep, there, question]
    apply State.phase_withPhase
    exact there

theorem Sound.fresh_of_done (sound : Sound math parseTs state) {index : Nat} {question : Question F}
    {snapshot : Option (List Row)}
    (asked : Asked index question snapshot state) {answer : Answer F}
    (done : state.phase index = some (.done answer)) :
    answer = fresh math parseTs question snapshot := by
  obtain ⟨call, found, rfl, rfl⟩ := asked
  have right := (sound.calls call (List.mem_of_getElem? found)).phase
  simp only [State.phase, found, Option.map_some, Option.some.injEq] at done
  rw [done] at right
  exact right

end Runs

section Answers
variable {F : Type} [Field F] [LinearOrder F] [IsStrictOrderedRing F] [FloorRing F]
variable {math : Math F} {parseTs : ParseTs} {state : State F} {call : Call F}

theorem Sound.consultReadiness (sound : Sound math parseTs state) (path : Option String)
    (key : String × String)
    (cell pool : List (Participant F)) (snapshot : Option (List Row)) :
    PhaseSound math parseTs (.readiness path key cell pool) snapshot (consultReadiness math state path key cell pool) := by
  unfold ForecastCaches.consultReadiness
  cases hit : state.readinessCache.get (cacheKey path key cell pool) with
  | some readiness =>
    obtain ⟨path', key', cell', pool', named, computed⟩ := sound.readiness _ _ hit
    obtain ⟨rfl, rfl⟩ := cacheKey_inj named
    simp [PhaseSound, fresh, computed]
  | none =>
    cases computed : readinessOf math cell pool with
    | ok readiness => exact ⟨path, key, cell, pool, rfl, computed⟩
    | error raised => simp [PhaseSound, fresh, computed]

theorem Sound.consult (sound : Sound math parseTs state) (index : Nat) :
    Sound math parseTs (state.consult math parseTs index) := by
  unfold State.consult
  split
  · rename_i call found
    split
    · have member := List.mem_of_getElem? found
      have snapshot := (sound.calls call member).snapshot
      apply sound.withPhase member
      unfold consulted
      cases asked : call.question with
      | history path now excludeSession =>
        exact sound.consultCorpus fun rows seen => snapshot path now excludeSession rows asked seen
      | readiness path key cell pool => exact sound.consultReadiness path key cell pool call.snapshot
    · exact sound
  · exact sound

theorem Sound.act (sound : Sound math parseTs state) (action : Action F) :
    Sound math parseTs (act math parseTs state action) := by
  cases action with
  | append path row => exact sound.edit path (·.append row) fun _ inside => Ledger.infix_append inside row
  | prune path count => exact sound.edit path (·.prune count) fun _ inside => inside
  | setPresent path present => exact sound.edit path ({ · with present }) fun _ inside => inside
  | ask question => exact sound.ask question
  | consult index => exact sound.consult index
  | keep index => exact sound.keep index

theorem Sound.run (sound : Sound math parseTs state) (actions : List (Action F)) :
    Sound math parseTs (Machine.run (ForecastCaches.act math parseTs) state actions) :=
  Machine.run_invariant (fun _ action kept => kept.act action) sound

theorem alone_eq (state : State F) (question : Question F) :
    alone math parseTs state question =
      some (.done (fresh math parseTs question (state.snapshot question))) := by
  let opened := act math parseTs (State.start state.ledgers) (.ask question)
  have asked : Asked 0 question (state.snapshot question) opened :=
    asked_ask (State.start state.ledgers) question
  have sound : Sound math parseTs opened := (Sound.start state.ledgers).ask question
  obtain ⟨answer, done⟩ : ∃ answer,
      ((opened.consult math parseTs 0).keep 0).phase 0 = some (.done answer) :=
    State.returns rfl rfl
  have same := (sound.run [.consult 0, .keep 0]).fresh_of_done (asked.run _) done
  exact same ▸ done

/-- In every run a call that returns gives what it gives alone, with empty caches, on the ledgers of
its transaction. -/
theorem caches_transparent (ledgers : String → Ledger) (before after : List (Action F))
    (question : Question F) (answer : Answer F)
    (returned : (Machine.run (act math parseTs) (State.start ledgers) (before ++ .ask question :: after)).phase
      (Machine.run (act math parseTs) (State.start ledgers) before).calls.length = some (.done answer)) :
    alone math parseTs (Machine.run (act math parseTs) (State.start ledgers) before) question =
      some (.done answer) := by
  rw [Machine.run_append, Machine.run_cons] at returned
  have sound : Sound math parseTs (Machine.run (act math parseTs) (State.start ledgers) before) :=
    (Sound.start ledgers).run before
  have later := (sound.act (.ask question)).run after
  rw [alone_eq, later.fresh_of_done ((asked_ask _ question).run after) returned]

end Answers

section Hit

def turn (id : Int) : Row where
  id := id
  sessionId := some "first"
  model := some "large"
  reasoningEffort := some "high"
  reasoningEffortSource := none
  reasoningEffortRaw := none
  statusCode := some 200
  timestamp := "2026-01-01T00:00:00"
  provider := ⟨none, none, none, none⟩
  own := ⟨some 5, some id, none, none⟩

def firstDay : ParseTs := fun _ => .ok (some 0)

def openLedgers : String → Ledger := fun _ => ⟨[], .nil, 0, true⟩

def plainMath : Math ℚ := ⟨id, id⟩

def sixHoursLater : Question ℚ := .history (some "monitor.db") completionIdle ""

/-- The corpus of four turns is kept, and another turn is recorded while the second call goes on. -/
def fourTurns : List (Action ℚ) :=
  ([1, 2, 3, 4].map fun id => Action.append "monitor.db" (turn id)) ++ [Action.ask sixHoursLater, .consult 0, .keep 0]

theorem fourCosts_whole : ∀ cost ∈ ([6, 7, 8, 9] : List ℚ), Whole cost := by
  intro cost member
  have counted : cost ∈ ([6, 7, 8, 9] : List Int).map (Int.cast : Int → ℚ) := by simpa using member
  obtain ⟨count, _, rfl⟩ := List.mem_map.mp counted
  exact ⟨count, rfl⟩

theorem hit_transparent :
    alone plainMath firstDay (Machine.run (act plainMath firstDay) (State.start openLedgers) fourTurns) sixHoursLater =
      some (.done (.history (.ok [⟨"large", "high", ⟨0, [6, 7, 8, 9]⟩, fourCosts_whole⟩]))) :=
  caches_transparent openLedgers fourTurns [.append "monitor.db" (turn 5),
    .consult 1] sixHoursLater _ (by decide +kernel)

end Hit

end TokenPak.Proxy.ForecastCaches
