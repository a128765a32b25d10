import TokenPak.Library.FloatRange
import TokenPak.Proofs.IntentDelivery
import TokenPak.Proofs.SpendReconciliation

/-! The daily spend has no missing window. An event leaves its file only after its estimate is in the
table, and the reader looks at the files first, so it sees every event that was queued
before it began in one place or the other. -/

namespace TokenPak.Companion.DailySpend
open Library PreSend

section Spool
variable {N Time Cost Hash Other : Type} [Numerals N] {sha256 : String → Hash}
  {other : String → Other} {round6 : Cost → Cost}
variable {first : World Time Cost Hash} {second : World Time Cost Other}

/-- Equal but for the journal. -/
structure Alike (first : World Time Cost Hash) (second : World Time Cost Other) : Prop where
  files : first.files = second.files
  estimates : first.estimates = second.estimates
  workers : first.workers = second.workers

theorem Alike.assign (alike : Alike first second) (worker : Nat) (state : Worker Time Cost) :
    Alike (first.assign worker state) (second.assign worker state) :=
  ⟨alike.files, alike.estimates, by simp only [World.assign, alike.workers]⟩

variable [LinearOrder Time] [DecidableEq Hash] [DecidableEq Other]

theorem Alike.move (alike : Alike first second) (worker : Nat) :
    Alike (move sha256 round6 first worker) (move other round6 second worker) := by
  unfold PreSend.move
  rw [← alike.workers]
  cases first.workers worker with
  | idle => exact alike
  | reading paths events =>
    cases paths with
    | nil => exact alike.assign worker _
    | cons path paths =>
      simp only [← alike.files]
      exact alike.assign worker _
  | journaling events =>
    have written : Alike (journalAll sha256 first events) (journalAll other second events) :=
      ⟨alike.files, alike.estimates, alike.workers⟩
    exact written.assign worker _
  | charging events =>
    by_cases fitting : events.all fits = true
    · simp only [if_pos fitting]
      have charged : Alike (chargeAll round6 first events) (chargeAll round6 second events) :=
        ⟨alike.files, by simp only [chargeAll, alike.estimates], alike.workers⟩
      exact charged.assign worker _
    · simp only [if_neg fitting]
      exact alike.assign worker _
  | unlinking paths =>
    cases paths with
    | nil => exact alike.assign worker _
    | cons path paths =>
      have removed : Alike { first with files := first.files.pop path }
          { second with files := second.files.pop path, workers := first.workers } :=
        ⟨by simp only [alike.files], alike.estimates, rfl⟩
      exact removed.assign worker _

theorem Alike.step (alike : Alike first second) (action : PreSend.Action Time Cost) :
    Alike (PreSend.step sha256 round6 N first action) (PreSend.step other round6 N second action) := by
  cases action with
  | queue intent eventId =>
    simp only [PreSend.step]
    cases queuedEvent N intent eventId with
    | none => exact alike
    | some event => exact ⟨by simp only [alike.files], alike.estimates, alike.workers⟩
  | start worker =>
    simp only [PreSend.step, ← alike.workers]
    cases first.workers worker with
    | idle =>
      simp only [← alike.files]
      exact alike.assign worker _
    | _ => exact alike
  | move worker => exact alike.move worker
  | crash worker => exact alike.assign worker _

theorem run_alike (actions : List (PreSend.Action Time Cost)) :
    Alike (PreSend.run sha256 round6 N empty actions) (PreSend.run other round6 N empty actions) := by
  induction actions using List.reverseRecOn with
  | nil => exact ⟨rfl, rfl, rfl⟩
  | append_singleton actions action ih =>
    simp only [PreSend.run, List.foldl_append] at ih ⊢
    exact ih.step action

end Spool

section Kept
variable {N Time Cost Hash : Type} [Numerals N] {sha256 : String → Hash} {round6 : Cost → Cost}
variable [LinearOrder Time] [DecidableEq Hash]

/-- Every event is in its file or has an estimate in the table that is not earlier. -/
structure Kept (round6 : Cost → Cost) (events : List (Event Time Cost))
    (world : World Time Cost Hash) : Prop where
  files : ∀ id event, world.files.get id = some event → event ∈ events
  kept : ∀ event ∈ events, world.files.get event.eventId = some event ∨ Covers world.estimates event
  budget : Budget round6 events world.estimates

theorem run_kept (actions : List (PreSend.Action Time Cost))
    (distinct : ((queued N actions).map Event.eventId).Nodup) :
    Kept round6 (queued N actions) (PreSend.run sha256 round6 N empty actions) := by
  -- With the texts themselves for hashes no two of them collide.
  have custody : Custody N id round6 (queued N actions) (PreSend.run id round6 N empty actions) :=
    run_custody Function.injective_id round6 actions distinct
  have alike : Alike (PreSend.run sha256 round6 N empty actions)
      (PreSend.run id round6 N empty actions) :=
    run_alike actions
  refine ⟨?_, ?_, ?_⟩
  · rw [alike.files]
    exact fun id event found => (custody.files id event found).2
  · rw [alike.files, alike.estimates]
    intro event member
    exact (custody.kept event member).imp_right And.right
  · rw [alike.estimates]
    exact custody.budget

theorem run_advances (actions : List (PreSend.Action Time Cost)) (action : PreSend.Action Time Cost)
    (distinct : ((queued N actions).map Event.eventId).Nodup) :
    Advances (PreSend.run sha256 round6 N empty actions).estimates
      (PreSend.run sha256 round6 N empty (actions ++ [action])).estimates := by
  have custody : Custody N id round6 (queued N actions) (PreSend.run id round6 N empty actions) :=
    run_custody Function.injective_id round6 actions distinct
  have before : Alike (PreSend.run sha256 round6 N empty actions)
      (PreSend.run id round6 N empty actions) :=
    run_alike actions
  have after : Alike (PreSend.run sha256 round6 N empty (actions ++ [action]))
      (PreSend.run id round6 N empty (actions ++ [action])) :=
    run_alike _
  have last : PreSend.run id round6 N empty (actions ++ [action]) =
      PreSend.step id round6 N (PreSend.run id round6 N empty actions) action := by simp [PreSend.run]
  rw [before.estimates, after.estimates, last]
  generalize PreSend.run id round6 N empty actions = world at custody
  cases action with
  | queue intent eventId =>
    simp only [PreSend.step]
    cases queuedEvent N intent eventId with
    | none => exact Advances.refl _
    | some event => exact Advances.refl _
  | start worker =>
    simp only [PreSend.step]
    split
    · exact Advances.refl _
    · exact Advances.refl _
  | crash worker => exact Advances.refl _
  | move worker =>
    have honest := custody.honest worker
    simp only [PreSend.step, PreSend.move]
    cases phase : world.workers worker with
    | charging held =>
      rw [phase] at honest
      by_cases fitting : held.all fits = true
      · simp only [if_pos fitting]
        exact (custody.budget.upsert_all fun event member => (honest event member).1).2.2
      · simp only [if_neg fitting]
        exact Advances.refl _
    | idle => exact Advances.refl _
    | journaling held => exact Advances.refl _
    | reading paths held => cases paths <;> exact Advances.refl _
    | unlinking paths => cases paths <;> exact Advances.refl _

end Kept

section Newest
variable {Time Cost : Type} [LinearOrder Time] {entries : List (Time × Cost)}
  {held other : Option (Time × Cost)}

structure Top (entries : List (Time × Cost)) (held : Option (Time × Cost)) : Prop where
  own : ∀ entry, held = some entry → entry ∈ entries
  high : ∀ entry ∈ entries, ∃ latest, held = some latest ∧ entry.1 ≤ latest.1

theorem Top.add (top : Top entries held) (entry : Time × Cost) :
    Top (entries ++ [entry]) (newest held entry) := by
  cases held with
  | none =>
    have empty : entries = [] := by
      apply List.eq_nil_iff_forall_not_mem.mpr
      intro other member
      obtain ⟨latest, absent, _⟩ := top.high other member
      cases absent
    subst empty
    exact ⟨by simp [newest], by simp [newest]⟩
  | some old =>
    have inside := top.own old rfl
    by_cases older : old.1 ≤ entry.1
    · simp only [newest, if_pos older]
      refine ⟨by simp, ?_⟩
      intro other member
      refine ⟨entry, rfl, ?_⟩
      rcases List.mem_append.mp member with before | now
      · obtain ⟨latest, same, bound⟩ := top.high other before
        cases same
        exact le_trans bound older
      · rw [List.mem_singleton.mp now]
    · simp only [newest, if_neg older]
      refine ⟨?_, ?_⟩
      · intro latest same
        cases same
        exact List.mem_append_left _ inside
      · intro other member
        rcases List.mem_append.mp member with before | now
        · exact top.high other before
        · rw [List.mem_singleton.mp now]
          exact ⟨old, rfl, le_of_lt (not_le.mp older)⟩

theorem Top.foldl (top : Top entries held) (more : List (Time × Cost)) :
    Top (entries ++ more) (more.foldl newest held) := by
  induction more generalizing entries held with
  | nil => simpa using top
  | cons entry more ih => simpa using ih (top.add entry)

theorem top_foldl (entries : List (Time × Cost)) : Top entries (entries.foldl newest none) := by
  have none_held : Top ([] : List (Time × Cost)) none := ⟨by simp, by simp⟩
  exact none_held.foldl entries

theorem Top.join {others : List (Time × Cost)} (top : Top entries held) (second : Top others other) :
    Top (entries ++ others) (other.elim held (newest held)) := by
  cases other with
  | none =>
    have empty : others = [] := by
      apply List.eq_nil_iff_forall_not_mem.mpr
      intro entry member
      obtain ⟨latest, absent, _⟩ := second.high entry member
      cases absent
    subst empty
    simpa using top
  | some candidate =>
    have added := top.add candidate
    constructor
    · intro entry same
      rcases List.mem_append.mp (added.own entry same) with before | now
      · exact List.mem_append_left _ before
      · rw [List.mem_singleton.mp now]
        exact List.mem_append_right _ (second.own candidate rfl)
    · intro entry member
      rcases List.mem_append.mp member with before | later
      · exact added.high entry (List.mem_append_left _ before)
      · obtain ⟨latest, same, bound⟩ := second.high entry later
        cases same
        obtain ⟨last, found, upper⟩ := added.high candidate (by simp)
        exact ⟨last, found, le_trans bound upper⟩

theorem Top.unique (first : Top entries held) (second : Top entries other)
    (ties : ∀ entry ∈ entries, ∀ another ∈ entries, entry.1 = another.1 → entry = another) :
    held = other := by
  cases held with
  | none =>
    cases other with
    | none => rfl
    | some latest =>
      obtain ⟨_, absent, _⟩ := first.high latest (second.own latest rfl)
      cases absent
  | some latest =>
    obtain ⟨last, found, bound⟩ := second.high latest (first.own latest rfl)
    obtain ⟨again, same, upper⟩ := first.high last (second.own last found)
    cases same
    rw [found, ties latest (first.own latest rfl) last (second.own last found) (le_antisymm bound upper)]

variable {date sessionId : String} {round6 : Cost → Cost} {events : List (Event Time Cost)}
variable {estimates : Dict (String × String) (Estimate Time Cost)}

omit [LinearOrder Time] in
theorem mem_candidates {entry : Time × Cost} : entry ∈ candidates date sessionId events ↔
    ∃ event ∈ events, event.date = date ∧ event.sessionId = sessionId ∧ ∃ tokens,
      event.cost = some (tokens, entry.2) ∧
      event.timestamp = entry.1 := by
  obtain ⟨time, cost⟩ := entry
  simp only [candidates, List.mem_filterMap]
  apply exists_congr
  intro event
  apply and_congr_right
  intro _
  by_cases ours : event.date = date ∧ event.sessionId = sessionId
  · cases event.cost with
    | none => simp [ours]
    | some value =>
      simp only [ours, and_self, if_true, Option.map_some, Option.some.injEq, Prod.mk.injEq, true_and]
      constructor
      · rintro ⟨early, same⟩
        exact ⟨value.1, Prod.ext rfl same, early⟩
      · rintro ⟨tokens, same, early⟩
        exact ⟨early, congrArg Prod.snd same⟩
  · simp only [if_neg ours, reduceCtorEq, false_iff]
    rintro ⟨day, session, _⟩
    exact ours ⟨day, session⟩

/-- The estimate that the table has of a session is a newest one. -/
theorem top_of_budget (date sessionId : String) (budget : Budget round6 events estimates)
    (covers : ∀ event ∈ events, Covers estimates event)
    (rounded : ∀ event ∈ events, ∀ tokens cost, event.cost = some (tokens, cost) → round6 cost = cost) :
    Top (candidates date sessionId events)
      ((estimates.get (sessionId, date)).map fun row => (row.timestamp, row.estimatedCost)) := by
  constructor
  · intro entry found
    obtain ⟨row, there, same⟩ := Option.map_eq_some_iff.mp found
    obtain ⟨event, member, tokens, cost, costed, place, equal⟩ := budget _ row there
    subst same equal
    simp only [Prod.mk.injEq] at place
    apply mem_candidates.mpr
    refine ⟨event, member, place.2, place.1, tokens, ?_, rfl⟩
    rw [rounded event member tokens cost costed]
    exact costed
  · intro entry member
    obtain ⟨event, inside, day, session, tokens, costed, early⟩ := mem_candidates.mp member
    subst day session
    obtain ⟨row, found, bound⟩ := covers event inside (by simp [costed])
    exact ⟨_, by rw [found]; rfl, early ▸ bound⟩

theorem top_seen (date sessionId : String)
    {recorded : List (Recorded Time Cost)} {rows : List (CostRow Time Cost)}
    (found : rows.Perm (companionCosts recorded estimates)) (pending : List (Event Time Cost)) :
    Top (((estimates.get (sessionId, date)).map fun row => (row.timestamp, row.estimatedCost)).toList ++
      candidates date sessionId pending) (seen date sessionId pending rows) := by
  have current : currentEstimates (rowsOf date sessionId rows) =
      ((estimates.get (sessionId, date)).map fun row => (row.timestamp, row.estimatedCost)).toList := by
    have perm := (kinds_perm (rowsOf_perm date sessionId found)).2.2
    rw [(kinds_of_table date sessionId recorded estimates).2.2] at perm
    cases estimate : (estimates.get (sessionId, date)).map fun row => (row.timestamp, row.estimatedCost) with
    | none =>
      rw [estimate] at perm
      exact perm.eq_nil
    | some entry =>
      rw [estimate] at perm
      exact List.perm_singleton.mp perm
  have top := (top_foldl (currentEstimates (rowsOf date sessionId rows))).join (top_foldl (candidates date sessionId pending))
  have both : seen date sessionId pending rows = ((candidates date sessionId pending).foldl newest none).elim
      ((currentEstimates (rowsOf date sessionId rows)).foldl newest none)
      (newest ((currentEstimates (rowsOf date sessionId rows)).foldl newest none)) := by
    rw [seen, get_pendingLatest]
    cases (candidates date sessionId pending).foldl newest none <;> rfl
  rw [both, ← current]
  exact top

end Newest

section Reading
variable {Time Cost Hash : Type} [LinearOrder Time] [LinearOrder Cost] [Zero Cost] [Add Cost]
variable {round6 : Cost → Cost} {date : String} {start events : List (Event Time Cost)}
  {base added : List (Recorded Time Cost)}

/-- What a finished call has gone by: of each event that was there at the start it has read the file, or
the table had an estimate that is not earlier. -/
structure Gathered (round6 : Cost → Cost) (start events : List (Event Time Cost))
    (pending : List (Event Time Cost))
    (estimates : Dict (String × String) (Estimate Time Cost)) : Prop where
  ours : ∀ event ∈ pending, event ∈ events
  each : ∀ event ∈ start, event ∈ pending ∨ Covers estimates event
  budget : Budget round6 events estimates

/-- A call that has begun with some events and recorded rows there. -/
def Watch (round6 : Cost → Cost) (date : String) (start events : List (Event Time Cost))
    (base added : List (Recorded Time Cost))
    (office : Office Time Cost Hash) : Prop :=
  match office.reader with
  | .idle => False
  | .reading paths pending => (∀ event ∈ pending, event ∈ events) ∧
      ∀ event ∈ start, event.eventId ∈ paths ∨ event ∈ pending ∨ Covers office.spool.estimates event
  | .done spend =>
      ∃ pending rows estimates before, before.Sublist added ∧
        rows.Perm (companionCosts (base ++ before) estimates) ∧
      spend = reconcile date pending rows ∧ Gathered round6 start events pending estimates

omit [LinearOrder Cost] [Zero Cost] [Add Cost] in
theorem Gathered.grow {more pending : List (Event Time Cost)}
    {estimates : Dict (String × String) (Estimate Time Cost)}
    (gathered : Gathered round6 start events pending estimates) (grown : events ⊆ more) :
    Gathered round6 start more pending estimates where
  ours event member := grown (gathered.ours event member)
  each := gathered.each
  budget place row found := by
    obtain ⟨event, among, rest⟩ := gathered.budget place row found
    exact ⟨event, grown among, rest⟩

theorem Watch.grow {office after : Office Time Cost Hash} {more : List (Event Time Cost)}
    {recorded : List (Recorded Time Cost)}
    (watch : Watch round6 date start events base added office) (same : after.reader = office.reader)
    (advances : Advances office.spool.estimates after.spool.estimates) (grown : events ⊆ more)
    (longer : added.Sublist recorded) :
    Watch round6 date start more base recorded after := by
  unfold Watch at watch ⊢
  rw [same]
  cases phase : office.reader with
  | idle => simp [phase] at watch
  | reading paths pending =>
    rw [phase] at watch
    refine ⟨fun event member => grown (watch.1 event member), ?_⟩
    intro event member
    rcases watch.2 event member with unread | read | covered
    · exact .inl unread
    · exact .inr (.inl read)
    · exact .inr (.inr (covered.advance advances))
  | done spend =>
    rw [phase] at watch
    obtain ⟨pending, rows, estimates, before, early, found, result, gathered⟩ := watch
    exact ⟨pending, rows, estimates, before, early.trans longer, found, result, gathered.grow grown⟩

theorem Watch.read {office : Office Time Cost Hash} {path : String} {paths : List String}
    {pending : List (Event Time Cost)}
    (watch : Watch round6 date start events base added office)
    (phase : office.reader = .reading (path :: paths) pending)
    (kept : Kept round6 events office.spool) (early : start ⊆ events) :
    Watch round6 date start events base added
      { office with reader := .reading paths (pending ++ (office.spool.files.get path).toList) } := by
  simp only [Watch, phase] at watch ⊢
  obtain ⟨ours, each⟩ := watch
  constructor
  · intro event member
    rcases List.mem_append.mp member with before | now
    · exact ours event before
    · exact kept.files path event (Option.mem_toList.mp now)
  · intro event member
    rcases each event member with unread | read | covered
    · rcases List.mem_cons.mp unread with here | later
      · rcases kept.kept event (early member) with found | covered
        · rw [here] at found
          exact .inr (.inl (by simp [found]))
        · exact .inr (.inr covered)
      · exact .inl later
    · exact .inr (.inl (List.mem_append_left _ read))
    · exact .inr (.inr covered)

theorem Watch.query {office : Office Time Cost Hash} {pending : List (Event Time Cost)}
    {rows : List (CostRow Time Cost)}
    (watch : Watch round6 date start events base added office) (phase : office.reader = .reading [] pending)
    (kept : Kept round6 events office.spool) (recorded : office.recorded = base ++ added)
    (found : rows.Perm (companionCosts office.recorded office.spool.estimates)) :
    Watch round6 date start events base added { office with reader := .done (reconcile date pending rows) } := by
  simp only [Watch, phase] at watch ⊢
  refine ⟨pending, rows, office.spool.estimates, added, List.Sublist.refl added, recorded ▸ found,
    rfl, watch.1, ?_, kept.budget⟩
  intro event member
  rcases watch.2 event member with unread | read | covered
  · cases unread
  · exact .inl read
  · exact .inr covered

end Reading

section Runs
variable {N Time Cost Hash : Type} [Numerals N] {sha256 : String → Hash} {round6 : Cost → Cost}
  {date : String}
variable [LinearOrder Time] [LinearOrder Cost] [Zero Cost] [Add Cost] [DecidableEq Hash]

theorem step_parts (sha256 : String → Hash) (round6 : Cost → Cost) (N : Type) [Numerals N]
    (date : String) (office : Office Time Cost Hash) (action : Action Time Cost) :
    (step sha256 round6 N date office action).spool =
      PreSend.run sha256 round6 N office.spool (spoolActions [action]) ∧
      (step sha256 round6 N date office action).recorded = office.recorded ++ recordings [action] := by
  cases action with
  | spool action => exact ⟨rfl, (List.append_nil _).symm⟩
  | record row => exact ⟨rfl, rfl⟩
  | list => exact ⟨rfl, (List.append_nil _).symm⟩
  | read =>
    simp only [step]
    split
    · exact ⟨rfl, (List.append_nil _).symm⟩
    · exact ⟨rfl, (List.append_nil _).symm⟩
  | query rows =>
    simp only [step]
    split
    · split
      · exact ⟨rfl, (List.append_nil _).symm⟩
      · exact ⟨rfl, (List.append_nil _).symm⟩
    · exact ⟨rfl, (List.append_nil _).symm⟩

theorem run_parts (sha256 : String → Hash) (round6 : Cost → Cost) (N : Type) [Numerals N]
    (date : String) (office : Office Time Cost Hash) (actions : List (Action Time Cost)) :
    (run sha256 round6 N date office actions).spool =
      PreSend.run sha256 round6 N office.spool (spoolActions actions) ∧
      (run sha256 round6 N date office actions).recorded = office.recorded ++ recordings actions := by
  induction actions using List.reverseRecOn with
  | nil => exact ⟨rfl, (List.append_nil _).symm⟩
  | append_singleton actions action ih =>
    obtain ⟨spool, recorded⟩ :=
      step_parts sha256 round6 N date (run sha256 round6 N date office actions) action
    have last : run sha256 round6 N date office (actions ++ [action]) =
      step sha256 round6 N date (run sha256 round6 N date office actions) action := by simp [run]
    rw [last, spool, recorded, ih.1, ih.2]
    simp [spoolActions, recordings, PreSend.run]

variable {legacy : List (Recorded Time Cost)}

/-- An office before anything is queued, with the recorded rows of a table. -/
def opened (legacy : List (Recorded Time Cost)) : Office Time Cost Hash := ⟨empty, legacy, .idle⟩

omit [LinearOrder Time] [LinearOrder Cost] [Zero Cost] [Add Cost] in
theorem queued_spool (first second : List (Action Time Cost)) : queued N (spoolActions (first ++ second)) =
    queued N (spoolActions first) ++ queued N (spoolActions second) := by
  simp [spoolActions_append, queued]

theorem run_snoc (office : Office Time Cost Hash) (actions : List (Action Time Cost))
    (action : Action Time Cost) :
    run sha256 round6 N date office (actions ++ [action]) =
      step sha256 round6 N date (run sha256 round6 N date office actions) action := by
  simp [run]

theorem advances_snoc (sha256 : String → Hash) (round6 : Cost → Cost) (date : String)
    (legacy : List (Recorded Time Cost)) (actions : List (Action Time Cost))
    (action : Action Time Cost)
    (apart : ((queued N (spoolActions actions)).map Event.eventId).Nodup) :
    Advances (run sha256 round6 N date (opened legacy) actions).spool.estimates
      (run sha256 round6 N date (opened legacy) (actions ++ [action])).spool.estimates := by
  rw [(run_parts sha256 round6 N date (opened legacy) _).1,
    (run_parts sha256 round6 N date (opened legacy) _).1, spoolActions_append]
  cases action with
  | spool action => exact run_advances _ action apart
  | _ =>
    simp only [spoolActions, List.filterMap_cons, List.filterMap_nil, List.append_nil]
    exact Advances.refl _

theorem Watch.step {start events : List (Event Time Cost)} {base added : List (Recorded Time Cost)}
    {office : Office Time Cost Hash}
    (watch : Watch round6 date start events base added office)
    (kept : Kept round6 events office.spool) (early : start ⊆ events)
    (recorded : office.recorded = base ++ added) (action : Action Time Cost) (single : action ≠ .list)
    (advances : Advances office.spool.estimates (step sha256 round6 N date office action).spool.estimates) :
    Watch round6 date start events base added (DailySpend.step sha256 round6 N date office action) := by
  have still {after : Office Time Cost Hash} (same : after.reader = office.reader)
      (moved : Advances office.spool.estimates after.spool.estimates) : Watch round6 date start events base added after :=
    watch.grow same moved (fun _ => id) (List.Sublist.refl added)
  cases action with
  | spool action => exact still rfl advances
  | record row => exact still rfl advances
  | list => exact absurd rfl single
  | read =>
    cases phase : office.reader with
    | reading paths pending =>
      cases paths with
      | nil => simpa [DailySpend.step, phase] using watch
      | cons path paths => simpa [DailySpend.step, phase] using watch.read phase kept early
    | _ => simpa [DailySpend.step, phase] using watch
  | query rows =>
    cases phase : office.reader with
    | reading paths pending =>
      cases paths with
      | nil =>
        by_cases found : rows.Perm (companionCosts office.recorded office.spool.estimates)
        · simpa [DailySpend.step, phase, found] using watch.query phase kept recorded found
        · simpa [DailySpend.step, phase, found] using watch
      | cons path paths => simpa [DailySpend.step, phase] using watch
    | _ => simpa [DailySpend.step, phase] using watch

theorem watch_run (sha256 : String → Hash) (round6 : Cost → Cost) (date : String)
    (legacy : List (Recorded Time Cost)) (before during : List (Action Time Cost))
    (single : ∀ action ∈ during, action ≠ .list)
    (distinct : ((queued N (spoolActions (before ++ .list :: during))).map Event.eventId).Nodup) :
    Watch round6 date (queued N (spoolActions before)) (queued N (spoolActions (before ++ .list :: during)))
      (legacy ++ recordings before) (recordings during)
          (run sha256 round6 N date (opened legacy) (before ++ .list :: during)) := by
  have office (actions : List (Action Time Cost))
    (apart : ((queued N (spoolActions actions)).map Event.eventId).Nodup) :
      Kept round6 (queued N (spoolActions actions))
          (run sha256 round6 N date (opened legacy) actions).spool := by
    rw [(run_parts sha256 round6 N date (opened legacy) actions).1]
    exact run_kept (spoolActions actions) apart
  induction during using List.reverseRecOn with
  | nil =>
    have start : queued N (spoolActions (before ++ [Action.list])) =
        queued N (spoolActions before) := by
      simp [spoolActions, queued]
    rw [start] at distinct ⊢
    have kept := office before distinct
    rw [run_snoc]
    refine ⟨by simp, ?_⟩
    intro event member
    rcases kept.kept event member with found | covered
    · apply Or.inl
      apply (List.mem_insertionSort _).mpr
      exact List.mem_map.mpr ⟨_, Dict.mem_entries found, rfl⟩
    · exact .inr (.inr covered)
  | append_singleton during action ih =>
    have longer : before ++ .list :: (during ++ [action]) = (before ++ .list :: during) ++ [action] := by simp
    rw [longer] at distinct ⊢
    rw [queued_spool] at distinct
    have apart : ((queued N (spoolActions (before ++ .list :: during))).map Event.eventId).Nodup := by
      rw [List.map_append, List.nodup_append'] at distinct
      exact distinct.1
    have watch := ih (fun other member => single other (List.mem_append_left _ member)) apart
    have kept := office _ apart
    have early : queued N (spoolActions before) ⊆ queued N (spoolActions (before ++ .list :: during)) := by
      rw [queued_spool]
      exact List.subset_append_left _ _
    have grown : queued N (spoolActions (before ++ .list :: during)) ⊆
        queued N (spoolActions ((before ++ .list :: during) ++ [action])) := by
      rw [queued_spool (before ++ .list :: during)]
      exact List.subset_append_left _ _
    have more : (recordings during).Sublist (recordings (during ++ [action])) := by
      rw [recordings_append]
      exact List.sublist_append_left _ _
    have recorded : (run sha256 round6 N date (opened legacy) (before ++ .list :: during)).recorded =
        (legacy ++ recordings before) ++ recordings during := by
      rw [(run_parts sha256 round6 N date (opened legacy) _).2]
      simp [opened, recordings]
    have advances := advances_snoc sha256 round6 date legacy _ action apart
    rw [run_snoc] at advances ⊢
    have moved := watch.step kept early recorded action (single action (by simp)) advances
    exact moved.grow rfl (Advances.refl _) grown more

/-- The ids are distinct, the costs are rounded, and events of one session, date and time have one cost. -/
structure Regular (round6 : Cost → Cost) (events : List (Event Time Cost)) : Prop where
  distinct : (events.map Event.eventId).Nodup
  rounded : ∀ event ∈ events, ∀ tokens cost, event.cost = some (tokens, cost) → round6 cost = cost
  ties : ∀ first ∈ events, ∀ second ∈ events, first.sessionId = second.sessionId → first.date = second.date →
    first.timestamp = second.timestamp → ∀ tokens cost others another, first.cost = some (tokens, cost) →
    second.cost = some (others, another) → cost = another

omit [LinearOrder Time] [LinearOrder Cost] [Zero Cost] [Add Cost] in
theorem Regular.candidates_eq {events : List (Event Time Cost)} {sessionId : String}
    (regular : Regular round6 events) :
    ∀ entry ∈ candidates date sessionId events, ∀ another ∈ candidates date sessionId events,
      entry.1 = another.1 →
      entry = another := by
  intro entry member another inside tie
  obtain ⟨first, among, day, session, tokens, costed, early⟩ := mem_candidates.mp member
  obtain ⟨second, there, date, same, others, priced, late⟩ := mem_candidates.mp inside
  have cost := regular.ties first among second there (session.trans same.symm) (day.trans date.symm) (by rw [early, late, tie]) tokens
    entry.2 others another.2 costed priced
  exact Prod.ext tie cost

omit [LinearOrder Time] [LinearOrder Cost] [Zero Cost] [Add Cost] in
theorem candidates_mono {some_events events : List (Event Time Cost)} {sessionId : String}
    {entry : Time × Cost} (ours : some_events ⊆ events)
    (member : entry ∈ candidates date sessionId some_events) : entry ∈ candidates date sessionId events := by
  obtain ⟨event, inside, rest⟩ := mem_candidates.mp member
  exact mem_candidates.mpr ⟨event, ours inside, rest⟩

/-- An event that is not newer than what a call has seen of its session. -/
def InTime (date : String) (pending : List (Event Time Cost)) (rows : List (CostRow Time Cost))
    (event : Event Time Cost) : Prop :=
  ∃ latest, seen date event.sessionId pending rows = some latest ∧ event.timestamp ≤ latest.1

omit [LinearOrder Cost] [Zero Cost] [Add Cost] in
/-- What the call sees of a session is the estimate that a flush of every event from before the call, and
of those that the call was in time for, leaves in the table. -/
theorem seen_eq {start events pending : List (Event Time Cost)} {rows : List (CostRow Time Cost)}
    {recorded : List (Recorded Time Cost)} {estimates listed : Dict (String × String) (Estimate Time Cost)}
    (extra : List (Event Time Cost)) (regular : Regular round6 events)
    (gathered : Gathered round6 start events pending estimates)
    (found : rows.Perm (companionCosts recorded estimates)) (budget : Budget round6 start listed)
    (ours : start ++ extra ⊆ events)
    (extra_iff : ∀ event ∈ events, event ∉ start → InTime date pending rows event → event ∈ extra)
    (inTime : ∀ event ∈ extra, InTime date pending rows event) (sessionId : String) :
    seen date sessionId pending rows =
      (((start ++ extra).foldl (upsertEstimate round6) listed).get (sessionId, date)).map fun row =>
        (row.timestamp, row.estimatedCost) := by
  have top := top_seen date sessionId found pending
  have call : Top (candidates date sessionId (start ++ extra)) (seen date sessionId pending rows) := by
    constructor
    · intro entry shown
      have origin : entry ∈ candidates date sessionId events := by
        rcases List.mem_append.mp (top.own entry shown) with row | read
        · obtain ⟨row, there, same⟩ := Option.map_eq_some_iff.mp (Option.mem_toList.mp row)
          obtain ⟨event, member, tokens, cost, costed, place, equal⟩ := gathered.budget _ row there
          subst same equal
          simp only [Prod.mk.injEq] at place
          rw [mem_candidates]
          refine ⟨event, member, place.2, place.1, tokens, ?_, rfl⟩
          rw [regular.rounded event member tokens cost costed]
          exact costed
        · exact candidates_mono gathered.ours read
      obtain ⟨event, member, day, session, tokens, costed, early⟩ := mem_candidates.mp origin
      apply mem_candidates.mpr
      refine ⟨event, ?_, day, session, tokens, costed, early⟩
      by_cases first : event ∈ start
      · exact List.mem_append_left _ first
      · apply List.mem_append_right
        apply extra_iff event member first
        exact ⟨entry, session ▸ shown, le_of_eq early⟩
    · intro entry member
      obtain ⟨event, inside, day, session, tokens, costed, early⟩ := mem_candidates.mp member
      rcases List.mem_append.mp inside with first | late
      · rcases gathered.each event first with read | covered
        · apply top.high
          apply List.mem_append_right
          exact mem_candidates.mpr ⟨event, read, day, session, tokens, costed, early⟩
        · obtain ⟨row, there, bound⟩ := covered (by simp [costed])
          rw [day, session] at there
          obtain ⟨latest, shown, upper⟩ := top.high (row.timestamp, row.estimatedCost) (by simp [there])
          exact ⟨latest, shown, early ▸ le_trans bound upper⟩
      · obtain ⟨latest, shown, bound⟩ := inTime event late
        exact ⟨latest, session ▸ shown, early ▸ bound⟩
  have all : Budget round6 (start ++ extra) listed := by
    intro place row there
    obtain ⟨event, member, rest⟩ := budget place row there
    exact ⟨event, List.mem_append_left _ member, rest⟩
  obtain ⟨flushed, covers, _⟩ := all.upsert_all fun event member => member
  have table := top_of_budget date sessionId flushed covers
    fun event member => regular.rounded event (ours member)
  apply call.unique table
  intro entry member another inside
  exact regular.candidates_eq entry (candidates_mono ours member) another (candidates_mono ours inside)

/-- The daily spend that a call returns is that of the table after a flush of every event queued
before the call, possibly with some of those that were queued and some rows that were recorded
meanwhile: each session counts for its actual rows if it has any, and otherwise for the highest of
its legacy estimates and its newest one. The query adds up the same costs, in an order of its own;
without rounding the two are equal. -/
theorem daily_spend_complete (before during : List (Action Time Cost))
    (single : ∀ action ∈ during, action ≠ .list)
    (regular : Regular round6 (queued N (spoolActions (before ++ .list :: during))))
    (nonneg : ∀ row ∈ legacy ++ recordings (before ++ during), 0 ≤ row.1.estimatedCost)
    (sum : List Cost → Cost) {spend : Cost}
    (returned : (run sha256 round6 N date (opened legacy) (before ++ .list :: during)).reader.result = some spend) :
    ∃ extra rows, extra.Sublist (queued N (spoolActions during)) ∧ rows.Sublist (recordings during) ∧
      let listing := run sha256 round6 N date (opened legacy) before
      let estimates :=
        (queued N (spoolActions before) ++
          extra).foldl (upsertEstimate round6) listing.spool.estimates
      let query := dailySpendSql sum date (companionCosts (listing.recorded ++ rows) estimates)
      SpendOf addUp date (listing.recorded ++ rows) estimates spend ∧
        SpendOf sum date (listing.recorded ++ rows) estimates query ∧ (Exact sum → spend = query) := by
  classical
  have watch := watch_run sha256 round6 date legacy before during single regular.distinct
  have finished : (run sha256 round6 N date (opened legacy) (before ++ .list :: during)).reader =
      .done spend := by
    cases phase : (run sha256 round6 N date (opened legacy) (before ++ .list :: during)).reader with
    | done value =>
      rw [phase] at returned
      exact congrArg Reader.done (Option.some.inj returned)
    | _ =>
      rw [phase] at returned
      cases returned
  simp only [Watch, finished] at watch
  obtain ⟨pending, rows, estimates, added, early, found, result, gathered⟩ := watch
  have split : queued N (spoolActions (before ++ .list :: during)) =
      queued N (spoolActions before) ++ queued N (spoolActions during) := by
    rw [queued_spool]
    rfl
  have distinct : ((queued N (spoolActions before)).map Event.eventId).Nodup := by
    have all := regular.distinct
    rw [split, List.map_append, List.nodup_append'] at all
    exact all.1
  obtain ⟨spool, recorded⟩ := run_parts sha256 round6 N date (opened legacy) before
  have listed : Budget round6 (queued N (spoolActions before))
      (run sha256 round6 N date (opened legacy) before).spool.estimates := by
    rw [spool]
    exact (run_kept (spoolActions before) distinct).budget
  let extra := (queued N (spoolActions during)).filter fun event => decide (InTime date pending rows event)
  refine ⟨extra, added, List.filter_sublist, early, ?_⟩
  have current := seen_eq extra regular gathered found listed (by
      rw [split]
      intro event member
      rcases List.mem_append.mp member with first | meanwhile
      · exact List.mem_append_left _ first
      · exact List.mem_append_right _ (List.mem_of_mem_filter meanwhile))
    (by
      intro event member late inTime
      rw [split] at member
      rcases List.mem_append.mp member with first | meanwhile
      · exact absurd first late
      · exact List.mem_filter.mpr ⟨meanwhile, decide_eq_true inTime⟩)
    fun event member => of_decide_eq_true (List.mem_filter.mp member).2
  have returned : SpendOf addUp date ((run sha256 round6 N date (opened legacy) before).recorded ++ added)
      ((queued N (spoolActions before) ++ extra).foldl (upsertEstimate round6)
        (run sha256 round6 N date (opened legacy) before).spool.estimates) spend := by
    rw [result, recorded]
    apply reconcile_spendOf found
    · intro row member
      apply nonneg
      rcases List.mem_append.mp member with old | now
      · rcases List.mem_append.mp old with first | then_recorded
        · exact List.mem_append_left _ first
        · apply List.mem_append_right
          rw [recordings_append]
          exact List.mem_append_left _ then_recorded
      · apply List.mem_append_right
        rw [recordings_append]
        exact List.mem_append_right _ (early.subset now)
    · intro sessionId
      rw [current sessionId, Option.map_map]
      rfl
  refine ⟨returned, dailySpendSql_spendOf sum, fun exact => ?_⟩
  have adds : Exact (addUp : List Cost → Cost) := { exact with adds := fun _ => rfl }
  exact (adds.spend_unique returned).trans (exact.spend_unique (dailySpendSql_spendOf sum)).symm

def twoIntents : List (Action Nat Nat) :=
  [.spool (.queue ⟨"s", 1, "2026-01-01", "prompt", "one", "\x7b\x7d", some 10, some 3⟩ "a"),
    .spool (.queue ⟨"t", 2, "2026-01-01", "prompt", "two", "\x7b\x7d", some 20, some 5⟩ "b")]

theorem actual_recorded : some "actual" ≠ some "estimate" := by decide

def actualRow : Recorded Nat Nat := ⟨⟨9, "2026-01-01", "t", "sonnet", 4, some "actual"⟩, actual_recorded⟩

/-- The call lists the files and reads the second one only after a worker has flushed both. -/
def flushedMeanwhile : List (Action Nat Nat) :=
  [Action.read] ++ [.start 0, .move 0, .move 0, .move 0, .move 0, .move 0, .move 0].map Action.spool ++
    [Action.record actualRow, .read,
    .query [actualRow.1, ⟨1, "2026-01-01", "s", "", 3, some "estimate"⟩, ⟨2, "2026-01-01", "t", "", 5, some "estimate"⟩]]

def twoEvents : List (Event Nat Nat) :=
  [⟨"a", 1, "2026-01-01", "s", "prompt", "one", "\x7b\x7d", some (10, 3)⟩,
    ⟨"b", 2, "2026-01-01", "t", "prompt", "two", "\x7b\x7d", some (20, 5)⟩]

theorem twoEvents_regular : Regular id twoEvents := by
  refine ⟨by simp [twoEvents], by simp [twoEvents], ?_⟩
  intro first among second others session _ _ tokens cost more another costed priced
  simp only [twoEvents, List.mem_cons, List.not_mem_nil, or_false] at among others
  rcases among with rfl | rfl
  · rcases others with rfl | rfl
    · simp_all
    · simp at session
  · rcases others with rfl | rfl
    · simp at session
    · simp_all

theorem daily_spend_flushed : ∃ extra rows, extra.Sublist (queued Int (spoolActions flushedMeanwhile)) ∧
    rows.Sublist (recordings flushedMeanwhile) ∧
      let listing := run (id : String → String) id Int "2026-01-01" (opened []) twoIntents
      let estimates :=
        (queued Int (spoolActions twoIntents) ++
          extra).foldl (upsertEstimate id) listing.spool.estimates
      SpendOf addUp "2026-01-01" (listing.recorded ++ rows) estimates 7 ∧
        7 = dailySpendSql addUp "2026-01-01" (companionCosts (listing.recorded ++ rows) estimates) := by
  have object : encodesObject Int "\x7b\x7d" = true := by decide +kernel
  have events : queued Int (spoolActions (twoIntents ++ .list :: flushedMeanwhile)) = twoEvents := by
    simp [twoEvents, queued, spoolActions, twoIntents, flushedMeanwhile, queuedEvent, cleanCost, object]
  have returned : (run (id : String → String) id Int "2026-01-01" (opened []) (twoIntents ++
    .list :: flushedMeanwhile)).reader.result =
      some 7 := by decide +kernel
  have regular : Regular id (queued Int (spoolActions (twoIntents ++ .list :: flushedMeanwhile))) := by
    rw [events]
    exact twoEvents_regular
  obtain ⟨extra, rows, some_events, some_rows, spent, -, same⟩ := daily_spend_complete twoIntents
    flushedMeanwhile (by simp [flushedMeanwhile]) regular (by simp [recordings, twoIntents]) addUp returned
  exact ⟨extra, rows, some_events, some_rows, spent,
    same ⟨Nat.zero_add, Nat.add_comm, Nat.add_assoc, fun _ => rfl⟩⟩

/-! Three rows of 0.1, 0.2 and 0.3, as doubles in units of 2⁻⁵⁵. The call takes them in
the order of the table, the query in the order of their sessions. -/

def Double : Type := Nat

instance : LinearOrder Double := inferInstanceAs (LinearOrder Nat)
instance : Zero Double := ⟨(0 : Nat)⟩
instance : Add Double := ⟨fun first second : Nat => FloatRange.round 53 (first + second)⟩

def Double.of (units : Nat) : Double := units

def spentRow (sessionId : String) (timestamp units : Nat) : Recorded Nat Double :=
  ⟨⟨timestamp, "2026-01-01", sessionId, "sonnet", .of units, some "actual"⟩, actual_recorded⟩

def spentRows : List (Recorded Nat Double) :=
  [spentRow "z" 1 3602879701896397, spentRow "b" 2 7205759403792794, spentRow "a" 3 10808639105689190]

theorem summed_in_two_orders :
    ¬∀ (legacy : List (Recorded Nat Double)) (before during : List (Action Nat Double)) (spend : Double),
      (∀ action ∈ during, action ≠ .list) →
      Regular id (queued Int (spoolActions (before ++ .list :: during))) →
      (∀ row ∈ legacy ++ recordings (before ++ during), 0 ≤ row.1.estimatedCost) →
      (run (id : String → String) id Int "2026-01-01" (opened legacy) (before ++ .list :: during)).reader.result =
        some spend →
      ∃ extra rows, extra.Sublist (queued Int (spoolActions during)) ∧ rows.Sublist (recordings during) ∧
        let listing := run (id : String → String) id Int "2026-01-01" (opened legacy) before
        let estimates :=
          (queued Int (spoolActions before) ++ extra).foldl (upsertEstimate id) listing.spool.estimates
        spend = dailySpendSql addUp "2026-01-01" (companionCosts (listing.recorded ++ rows) estimates) := by
  intro always
  have higher : (run (id : String → String) id Int "2026-01-01" (opened spentRows)
      ([] ++ Action.list :: [.query (spentRows.map Subtype.val)])).reader.result =
      some (.of 21617278211378384) := by decide +kernel
  obtain ⟨extra, rows, some_events, some_rows, same⟩ := always spentRows [] [.query (spentRows.map Subtype.val)]
    _ (by simp) ⟨by decide, by simp [queued, spoolActions], by simp [queued, spoolActions]⟩
    (fun row _ => Nat.zero_le _) higher
  obtain rfl : extra = [] := List.sublist_nil.mp some_events
  obtain rfl : rows = [] := List.sublist_nil.mp some_rows
  have lower : dailySpendSql addUp "2026-01-01" (spentRows.map Subtype.val) = .of 21617278211378380 := by
    decide +kernel
  exact absurd (same.trans lower) (by decide)

end Runs

end TokenPak.Companion.DailySpend
