import Mathlib.Data.List.Dedup
import Mathlib.Data.List.Induction
import TokenPak.Companion.DailySpend

/-! The hand-written reconciliation and the aggregate query give each session the same share: its
actual rows if there are any, and otherwise the highest of its legacy estimates and its newest one. -/

namespace TokenPak.Companion.DailySpend
open Library PreSend

section Kinds
variable {Time Cost : Type}

def actualCosts (group : List (CostRow Time Cost)) : List Cost :=
  (group.filter fun row => row.effectiveKind = "actual").map CostRow.estimatedCost

def legacyCosts (group : List (CostRow Time Cost)) : List Cost :=
  (group.filter fun row => row.effectiveKind ≠ "actual" ∧
    row.effectiveKind ≠ "estimate").map CostRow.estimatedCost

def currentEstimates (group : List (CostRow Time Cost)) : List (Time × Cost) :=
  (group.filter fun row => row.effectiveKind = "estimate").map fun row => (row.timestamp, row.estimatedCost)

theorem actual_iff (row : CostRow Time Cost) : row.sqlKind = "actual" ↔ row.effectiveKind = "actual" := by
  unfold CostRow.sqlKind CostRow.effectiveKind
  cases row.kind with
  | some kind => rfl
  | none =>
    by_cases legacy : row.model = ""
    · simp [legacy]
    · simp [legacy]

theorem effectiveKind_recorded (row : Recorded Time Cost) : row.1.effectiveKind ≠ "estimate" := by
  obtain ⟨row, other⟩ := row
  unfold CostRow.effectiveKind
  cases kind : row.kind with
  | some name =>
    intro same
    exact other (kind.trans (congrArg some same))
  | none =>
    by_cases legacy : row.model = ""
    · simp [legacy]
    · simp [legacy]

theorem kinds_perm {first second : List (CostRow Time Cost)} (perm : first.Perm second) :
    (actualCosts first).Perm (actualCosts second) ∧ (legacyCosts first).Perm (legacyCosts second) ∧
      (currentEstimates first).Perm (currentEstimates second) :=
  ⟨(perm.filter _).map _, (perm.filter _).map _, (perm.filter _).map _⟩

end Kinds

section Shares
variable {Time Cost : Type} [Zero Cost] [LinearOrder Cost]
variable {actual legacy : List Cost} {current : Option Cost} {sum : List Cost → Cost}

/-- What a session counts for: the addends that stand for its actual rows, if it has
any, or its highest estimate. -/
def share (sum : List Cost → Cost) (addends actual legacy : List Cost) (current : Option Cost) : Cost :=
  if actual ≠ [] then sum addends else (legacy ++ current.toList).max?.getD 0

omit [Zero Cost] in
theorem max?_of_perm {first second : List Cost} (perm : first.Perm second) : first.max? = second.max? := by
  cases top : second.max? with
  | none =>
    rw [List.max?_eq_none_iff] at top ⊢
    subst top
    exact perm.eq_nil
  | some highest =>
    rw [List.max?_eq_some_iff] at top ⊢
    exact ⟨perm.mem_iff.mpr top.1, fun other member => top.2 other (perm.mem_iff.mp member)⟩

theorem share_of_perm {addends others another : List Cost} (actuals : actual.Perm others)
    (legacies : legacy.Perm another) :
    share sum addends actual legacy current = share sum addends others another current := by
  have empty : actual = [] ↔ others = [] := by
    rw [← List.length_eq_zero_iff, actuals.length_eq, List.length_eq_zero_iff]
  simp only [share, ne_eq, empty, max?_of_perm (legacies.append_right current.toList)]

/-- The addends of the query for a session: its actual rows, and a zero for every
other row. -/
def sqlAddends (group : List (CostRow Time Cost)) : List Cost :=
  group.map fun row => if row.sqlKind = "actual" then row.estimatedCost else 0

omit [LinearOrder Cost] in
theorem sqlAddends_perm (group : List (CostRow Time Cost)) :
    ∃ zeros, (sqlAddends group).Perm (actualCosts group ++ List.replicate zeros 0) := by
  induction group with
  | nil => exact ⟨0, .nil⟩
  | cons row group ih =>
    obtain ⟨zeros, perm⟩ := ih
    by_cases actual : row.sqlKind = "actual"
    · refine ⟨zeros, ?_⟩
      have costs : actualCosts (row :: group) = row.estimatedCost :: actualCosts group := by
        simp [actualCosts, (actual_iff row).mp actual]
      rw [sqlAddends, List.map_cons, if_pos actual, costs]
      exact perm.cons _
    · refine ⟨zeros + 1, ?_⟩
      have costs : actualCosts (row :: group) = actualCosts group := by
        simp [actualCosts, mt (actual_iff row).mpr actual]
      rw [sqlAddends, List.map_cons, if_neg actual, costs, List.replicate_succ]
      exact (perm.cons 0).trans List.perm_middle.symm

theorem sessionSpend_eq {group : List (CostRow Time Cost)} {held : Option (Time × Cost)}
    (single : currentEstimates group = held.toList) :
    sessionSpend sum group =
      share sum (sqlAddends group) (actualCosts group) (legacyCosts group) (held.map Prod.snd) := by
  have actual : group.filter (fun row => row.sqlKind = "actual") = group.filter fun row =>
      row.effectiveKind = "actual" := by
    apply List.filter_congr
    intro row _
    exact decide_eq_decide.mpr (actual_iff row)
  simp only [sessionSpend, actual, share]
  by_cases none_actual : group.filter (fun row => row.effectiveKind = "actual") = []
  · have estimates : (group.map CostRow.estimatedCost).Perm (legacyCosts group ++
        (held.map Prod.snd).toList) := by
      have current : (held.map Prod.snd).toList = (group.filter fun row =>
          row.effectiveKind = "estimate").map CostRow.estimatedCost := by
        have seconds := congrArg (List.map Prod.snd) single
        have cost : Prod.snd ∘ (fun row : CostRow Time Cost => (row.timestamp, row.estimatedCost)) =
            CostRow.estimatedCost :=
          rfl
        rw [currentEstimates, List.map_map, cost] at seconds
        rw [seconds]
        cases held with
        | none => rfl
        | some value => rfl
      rw [current, legacyCosts, ← List.map_append]
      apply List.Perm.map
      have others : group.filter (fun row => row.effectiveKind ≠ "actual" ∧ row.effectiveKind ≠ "estimate") =
          group.filter fun row => !decide (row.effectiveKind = "estimate") := by
        apply List.filter_congr
        intro row member
        have estimate : row.effectiveKind ≠ "actual" := by
          simpa using List.filter_eq_nil_iff.mp none_actual row member
        simp [estimate]
      rw [others]
      exact ((List.filter_append_perm _ group).symm.trans List.perm_append_comm)
    simp [actualCosts, none_actual, max?_of_perm estimates]
  · have some_actual := List.length_pos_iff.mpr none_actual
    simp [actualCosts, none_actual, some_actual, sqlAddends]

end Shares

section Sessions
variable {Time Cost : Type} [Zero Cost] [Add Cost] [LinearOrder Cost] [LinearOrder Time]
variable {item : SpendSessionState Time Cost} {group : List (CostRow Time Cost)}

omit [Zero Cost] [Add Cost] in
def highest (previous : Option Cost) (cost : Cost) : Option Cost :=
  some (match previous with
    | none => cost
    | some held => max held cost)

omit [Zero Cost] [Add Cost] in
theorem foldl_highest (costs : List Cost) : costs.foldl highest none = costs.max? := by
  have held (costs : List Cost) (top : Cost) : costs.foldl highest (some top) =
      some (costs.foldl max top) := by
    induction costs generalizing top with
    | nil => rfl
    | cons cost costs ih => exact ih (max top cost)
  cases costs with
  | nil => rfl
  | cons cost costs =>
    rw [List.max?_cons']
    exact held costs cost

omit [Zero Cost] in
theorem foldl_read (item : SpendSessionState Time Cost) (group : List (CostRow Time Cost)) :
    group.foldl SpendSessionState.read item =
    { actualCount := item.actualCount + (actualCosts group).length
      actualSpend := (actualCosts group).foldl (· + ·) item.actualSpend
      legacyEstimate := (legacyCosts group).foldl highest item.legacyEstimate
      currentEstimate := (currentEstimates group).foldl newest item.currentEstimate } := by
  induction group generalizing item with
  | nil => simp [actualCosts, legacyCosts, currentEstimates]
  | cons row group ih =>
    rw [List.foldl_cons, ih]
    by_cases actual : row.effectiveKind = "actual"
    · simp [SpendSessionState.read, actualCosts, legacyCosts, currentEstimates, actual, Nat.add_comm,
        Nat.add_assoc]
    · by_cases estimate : row.effectiveKind = "estimate"
      · simp [SpendSessionState.read, actualCosts, legacyCosts, currentEstimates, estimate]
      · obtain ⟨count, spend, legacy, current⟩ := item
        cases legacy <;> simp [SpendSessionState.read, actualCosts, legacyCosts, currentEstimates,
          actual, estimate, highest]

omit [LinearOrder Time] in
/-- The share of a session by its state, for costs that are not negative. -/
theorem spend_eq {actual legacy : List Cost} {current : Option (Time × Cost)}
    (nonneg : ∀ cost ∈ legacy, 0 ≤ cost) :
    (⟨actual.length, addUp actual, legacy.max?, current⟩ : SpendSessionState Time Cost).spend =
      share addUp actual actual legacy (current.map Prod.snd) := by
  simp only [SpendSessionState.spend, share, List.length_pos_iff]
  by_cases none_actual : actual = []
  · simp only [none_actual, ne_eq, not_true_eq_false, if_false]
    cases top : legacy.max? with
    | none =>
      have empty := List.max?_eq_none_iff.mp top
      subst empty
      cases current with
      | none => rfl
      | some value => simp
    | some cost =>
      obtain ⟨member, bound⟩ := List.max?_eq_some_iff.mp top
      cases current with
      | none => simp [top, nonneg cost member]
      | some value =>
        have both : (legacy ++ [value.2]).max? = some (max cost value.2) := by
          rw [List.max?_eq_some_iff]
          constructor
          · rcases max_choice cost value.2 with first | second
            · rw [first]
              exact List.mem_append_left _ member
            · rw [second]
              simp
          · intro other inside
            rcases List.mem_append.mp inside with old | new
            · exact le_trans (bound other old) (le_max_left _ _)
            · rw [List.mem_singleton.mp new]
              exact le_max_right _ _
        simp [both]
  · simp [none_actual]

theorem state_of_rows (group : List (CostRow Time Cost)) : group.foldl SpendSessionState.read .new =
    ⟨(actualCosts group).length, addUp (actualCosts group), (legacyCosts group).max?,
      (currentEstimates group).foldl newest none⟩ := by
  simp [foldl_read, SpendSessionState.new, foldl_highest, addUp]

end Sessions

section Dictionaries
variable {Time Cost : Type} [Zero Cost] [Add Cost] [LinearOrder Cost] [LinearOrder Time]
  {date sessionId : String}

def rowsOf (date sessionId : String) (rows : List (CostRow Time Cost)) : List (CostRow Time Cost) :=
  (rows.filter fun row => row.date = date).filter fun row => row.sessionId = sessionId

/-- The pending estimates of a session on a day. -/
def candidates (date sessionId : String) (pending : List (Event Time Cost)) : List (Time × Cost) :=
  pending.filterMap fun event =>
    if event.date = date ∧ event.sessionId = sessionId then event.cost.map fun cost =>
      (event.timestamp, cost.2) else none

theorem get_readRows (rows : List (CostRow Time Cost)) : (readRows date rows).get sessionId =
    if rowsOf date sessionId rows = [] then none
      else some ((rowsOf date sessionId rows).foldl .read .new) := by
  have grouped := Dict.get_foldl_group CostRow.sessionId
    (fun held row => (held.getD .new : SpendSessionState Time Cost).read row)
      (rows.filter fun row => row.date = date) Dict.empty sessionId
  have fold (group : List (CostRow Time Cost)) (item : SpendSessionState Time Cost) :
      group.foldl (fun held row => some ((held.getD .new : SpendSessionState Time Cost).read row))
        (some item) =
        some (group.foldl .read item) := by
    induction group generalizing item with
    | nil => rfl
    | cons row group ih => exact ih (item.read row)
  rw [readRows]
  apply grouped.trans
  change (rowsOf date sessionId rows).foldl _ none = _
  cases rowsOf date sessionId rows with
  | nil => rfl
  | cons row group => exact fold group _

omit [Zero Cost] [Add Cost] [LinearOrder Cost] in
theorem newest_some (previous : Option (Time × Cost)) (candidate : Time × Cost) :
    ∃ value, newest previous candidate = some value := by
  cases previous with
  | none => exact ⟨candidate, rfl⟩
  | some held =>
    by_cases older : held.1 ≤ candidate.1
    · exact ⟨candidate, if_pos older⟩
    · exact ⟨held, if_neg older⟩

omit [Zero Cost] [Add Cost] [LinearOrder Cost] in
theorem foldl_newest_some (entries : List (Time × Cost)) (held : Time × Cost) :
    ∃ value, entries.foldl newest (some held) = some value := by
  induction entries generalizing held with
  | nil => exact ⟨held, rfl⟩
  | cons entry entries ih =>
    obtain ⟨value, replaced⟩ := newest_some (some held) entry
    rw [List.foldl_cons, replaced]
    exact ih value

omit [Zero Cost] [Add Cost] [LinearOrder Cost] in
theorem get_pendingLatest (pending : List (Event Time Cost)) :
    (pendingLatest date pending).get sessionId = (candidates date sessionId pending).foldl newest none := by
  induction pending using List.reverseRecOn with
  | nil => rfl
  | append_singleton pending event ih =>
    have split : candidates date sessionId (pending ++ [event]) =
        candidates date sessionId pending ++ candidates date sessionId [event] := List.filterMap_append
    rw [pendingLatest, List.foldl_append, ← pendingLatest, split, List.foldl_append, ← ih]
    cases costed : event.cost with
    | none => simp [candidates, costed]
    | some cost =>
      by_cases today : event.date = date
      · obtain ⟨value, replaced⟩ :=
          newest_some ((pendingLatest date pending).get event.sessionId) (event.timestamp, cost.2)
        by_cases ours : event.sessionId = sessionId
        · subst ours
          simp [candidates, costed, today, replaced, Dict.get_set_self]
        · simp [candidates, costed, today, replaced, ours, Dict.get_set_of_ne (Ne.symm ours)]
      · simp [candidates, costed, today]

omit [Add Cost] [LinearOrder Cost] in
theorem get_addPending (state : Dict String (SpendSessionState Time Cost))
    (latest : Dict String (Time × Cost)) :
    (addPending state latest).get sessionId =
      match latest.get sessionId with
      | none => state.get sessionId
      | some candidate =>
        some { sessionState state sessionId with
          currentEstimate := newest (sessionState state sessionId).currentEstimate candidate } := by
  have grouped := Dict.get_foldl_group Prod.fst (fun held (entry : String × Time × Cost) =>
    { (held.getD .new : SpendSessionState Time Cost) with
      currentEstimate := newest (held.getD .new : SpendSessionState Time Cost).currentEstimate entry.2 }) latest.entries state sessionId
  rw [addPending]
  apply grouped.trans
  rw [Dict.filter_key]
  cases latest.get sessionId with
  | none => rfl
  | some candidate => rfl

/-- The newest estimate of a session among its current row and its pending ones. -/
def seen (date sessionId : String) (pending : List (Event Time Cost))
    (rows : List (CostRow Time Cost)) : Option (Time × Cost) :=
  let current := (currentEstimates (rowsOf date sessionId rows)).foldl newest none
  match (pendingLatest date pending).get sessionId with
  | none => current
  | some candidate => newest current candidate

theorem get_state (rows : List (CostRow Time Cost)) (pending : List (Event Time Cost)) :
    (addPending (readRows date rows) (pendingLatest date pending)).get sessionId =
      if rowsOf date sessionId rows = [] ∧ (pendingLatest date pending).get sessionId = none then none
      else
        some ⟨(actualCosts (rowsOf date sessionId rows)).length,
          addUp (actualCosts (rowsOf date sessionId rows)),
          (legacyCosts (rowsOf date sessionId rows)).max?, seen date sessionId pending rows⟩ := by
  rw [get_addPending, sessionState, get_readRows, state_of_rows, seen]
  cases latest : (pendingLatest date pending).get sessionId with
  | none => simp
  | some candidate =>
    by_cases nothing : rowsOf date sessionId rows = []
    · simp [nothing, SpendSessionState.new, actualCosts, legacyCosts, currentEstimates, addUp]
    · simp [nothing]

end Dictionaries

section Tables
variable {Time Cost : Type} {date sessionId : String} {recorded : List (Recorded Time Cost)}
variable {estimates : Dict (String × String) (Estimate Time Cost)}

theorem rowsOf_append (first second : List (CostRow Time Cost)) :
    rowsOf date sessionId (first ++ second) =
      rowsOf date sessionId first ++ rowsOf date sessionId second := by
  simp [rowsOf]

theorem rowsOf_estimateRows : rowsOf date sessionId (estimateRows estimates) =
    (estimates.get (sessionId, date)).toList.map fun row =>
      ⟨row.timestamp, date, sessionId, "", row.estimatedCost, some "estimate"⟩ := by
  have places : rowsOf date sessionId (estimateRows estimates) =
      (estimates.entries.filter (·.1 = (sessionId, date))).map fun entry =>
        ⟨entry.2.timestamp, entry.1.2, entry.1.1, "", entry.2.estimatedCost, some "estimate"⟩ := by
    rw [rowsOf, estimateRows, List.filter_map, List.filter_map, List.filter_filter]
    congr 1
    apply List.filter_congr
    intro entry _
    simp [Prod.ext_iff]
  rw [places, Dict.filter_key, List.map_map]
  rfl

theorem kinds_of_table (date sessionId : String) (recorded : List (Recorded Time Cost))
    (estimates : Dict (String × String) (Estimate Time Cost)) :
    actualCosts (rowsOf date sessionId (companionCosts recorded estimates)) =
      actualCosts (rowsOf date sessionId (recorded.map Subtype.val)) ∧
    legacyCosts (rowsOf date sessionId (companionCosts recorded estimates)) =
      legacyCosts (rowsOf date sessionId (recorded.map Subtype.val)) ∧
    currentEstimates (rowsOf date sessionId (companionCosts recorded estimates)) =
      ((estimates.get (sessionId, date)).map fun row => (row.timestamp, row.estimatedCost)).toList := by
  have none_current : currentEstimates (rowsOf date sessionId (recorded.map Subtype.val)) = [] := by
    rw [currentEstimates, List.map_eq_nil_iff, List.filter_eq_nil_iff]
    intro row member
    obtain ⟨source, _, same⟩ := List.mem_map.mp (List.mem_of_mem_filter (List.mem_of_mem_filter member))
    subst same
    simpa using effectiveKind_recorded source
  rw [companionCosts, rowsOf_append, rowsOf_estimateRows]
  cases estimates.get (sessionId, date) with
  | none => exact ⟨by simp, by simp, by simpa using none_current⟩
  | some row =>
    have kind : (⟨row.timestamp, date, sessionId, "", row.estimatedCost,
      some "estimate"⟩ : CostRow Time Cost).effectiveKind =
        "estimate" := rfl
    refine ⟨?_, ?_, ?_⟩
    · simp [actualCosts, kind]
    · simp [legacyCosts, kind]
    · simpa [currentEstimates, kind] using none_current

theorem rowsOf_table_nil : rowsOf date sessionId (companionCosts recorded estimates) = [] ↔
    rowsOf date sessionId (recorded.map Subtype.val) = [] ∧ estimates.get (sessionId, date) = none := by
  rw [companionCosts, rowsOf_append, rowsOf_estimateRows]
  simp

def sessionsOf (date : String) (rows : List (CostRow Time Cost)) : List String :=
  ((rows.filter fun row => row.date = date).map CostRow.sessionId).dedup

theorem mem_sessionsOf {rows : List (CostRow Time Cost)} :
    sessionId ∈ sessionsOf date rows ↔ rowsOf date sessionId rows ≠ [] := by
  rw [sessionsOf, List.mem_dedup, rowsOf, Ne, List.filter_eq_nil_iff]
  simp [and_assoc]

theorem rowsOf_perm (date sessionId : String) {first second : List (CostRow Time Cost)}
    (perm : first.Perm second) :
    (rowsOf date sessionId first).Perm (rowsOf date sessionId second) := (perm.filter _).filter _

theorem seen_none [LinearOrder Time] {rows : List (CostRow Time Cost)} {pending : List (Event Time Cost)} :
    seen date sessionId pending rows = none ↔
      currentEstimates (rowsOf date sessionId rows) = [] ∧
          (pendingLatest date pending).get sessionId = none := by
  rw [seen]
  cases (pendingLatest date pending).get sessionId with
  | none =>
    cases currentEstimates (rowsOf date sessionId rows) with
    | nil => simp
    | cons entry entries =>
      obtain ⟨value, replaced⟩ := foldl_newest_some entries entry
      simp [newest, replaced]
  | some candidate =>
    obtain ⟨value, replaced⟩ :=
      newest_some ((currentEstimates (rowsOf date sessionId rows)).foldl newest none) candidate
    simp [replaced]

variable [Zero Cost] [LinearOrder Cost] {sum : List Cost → Cost}

/-- The share of a session of the table, by the addends that stand for its actual rows. -/
def tableShare (sum : List Cost → Cost) (date : String) (recorded : List (Recorded Time Cost))
    (estimates : Dict (String × String) (Estimate Time Cost)) (addends : List Cost) (sessionId : String) : Cost :=
  share sum addends (actualCosts (rowsOf date sessionId (recorded.map Subtype.val)))
    (legacyCosts (rowsOf date sessionId (recorded.map Subtype.val)))
    ((estimates.get (sessionId, date)).map Estimate.estimatedCost)

/-- The spend is the sum of the shares of the day's sessions in some order; the share
of one with actual rows is the sum of these in some order, with zeros in between. -/
def SpendOf (sum : List Cost → Cost) (date : String) (recorded : List (Recorded Time Cost))
    (estimates : Dict (String × String) (Estimate Time Cost)) (spend : Cost) : Prop :=
  ∃ (sessions : List String) (addends : String → List Cost),
    sessions.Perm (sessionsOf date (companionCosts recorded estimates)) ∧
    (∀ sessionId, ∃ zeros, (addends sessionId).Perm
      (actualCosts (rowsOf date sessionId (recorded.map Subtype.val)) ++ List.replicate zeros 0)) ∧
    spend = sum (sessions.map fun sessionId =>
      tableShare sum date recorded estimates (addends sessionId) sessionId)

theorem dailySpendSql_spendOf (sum : List Cost → Cost) : SpendOf sum date recorded estimates
    (dailySpendSql sum date (companionCosts recorded estimates)) := by
  refine ⟨_, fun sessionId => sqlAddends (rowsOf date sessionId (companionCosts recorded estimates)),
    List.perm_insertionSort (· ≤ ·) _, fun sessionId => ?_, ?_⟩
  · obtain ⟨actual, -, -⟩ := kinds_of_table date sessionId recorded estimates
    exact actual ▸ sqlAddends_perm _
  · rw [dailySpendSql]
    congr 1
    apply List.map_congr_left
    intro sessionId _
    obtain ⟨actual, legacy, current⟩ := kinds_of_table date sessionId recorded estimates
    apply (sessionSpend_eq current).trans
    rw [actual, legacy, Option.map_map]
    rfl

/-- If the call has seen the newest estimates of a table, it returns a spend of that table. -/
theorem reconcile_spendOf [Add Cost] [LinearOrder Time] {rows : List (CostRow Time Cost)}
    {pending : List (Event Time Cost)} {after : Dict (String × String) (Estimate Time Cost)}
    (found : rows.Perm (companionCosts recorded estimates))
    (nonneg : ∀ row ∈ recorded, 0 ≤ row.1.estimatedCost)
    (current : ∀ sessionId, (seen date sessionId pending rows).map Prod.snd =
      (after.get (sessionId, date)).map Estimate.estimatedCost) :
    SpendOf addUp date recorded after (reconcile date pending rows) := by
  have kinds (sessionId : String) : (actualCosts (rowsOf date sessionId rows)).Perm (actualCosts (rowsOf date sessionId (recorded.map Subtype.val))) ∧
      (legacyCosts (rowsOf date sessionId rows)).Perm (legacyCosts (rowsOf date sessionId (recorded.map Subtype.val))) := by
    obtain ⟨actual, legacy, _⟩ := kinds_of_table date sessionId recorded estimates
    obtain ⟨actuals, legacies, _⟩ := kinds_perm (rowsOf_perm date sessionId found)
    exact ⟨actual ▸ actuals, legacy ▸ legacies⟩
  have unread (sessionId : String) : rowsOf date sessionId rows = [] ∧
    (pendingLatest date pending).get sessionId = none ↔
      rowsOf date sessionId (companionCosts recorded after) = [] := by
    have nothing : (after.get (sessionId, date)) = none ↔ seen date sessionId pending rows = none := by
      rw [← Option.map_eq_none_iff, ← current, Option.map_eq_none_iff]
    have perm := rowsOf_perm date sessionId found
    have same : rowsOf date sessionId rows = [] ↔
        rowsOf date sessionId (companionCosts recorded estimates) = [] := by
      rw [← List.length_eq_zero_iff, perm.length_eq, List.length_eq_zero_iff]
    have same_current : currentEstimates (rowsOf date sessionId rows) = [] ↔
        estimates.get (sessionId, date) = none := by
      rw [← List.length_eq_zero_iff, (kinds_perm perm).2.2.length_eq,
        (kinds_of_table date sessionId recorded estimates).2.2]
      simp
    rw [rowsOf_table_nil, nothing, seen_none, same, rowsOf_table_nil, same_current]
    tauto
  have spend (sessionId : String) (present : rowsOf date sessionId (companionCosts recorded after) ≠ []) :
      (((addPending (readRows date rows) (pendingLatest date pending)).get sessionId).map SpendSessionState.spend).getD 0 =
        tableShare addUp date recorded after (actualCosts (rowsOf date sessionId rows)) sessionId := by
    have owed : ∀ cost ∈ legacyCosts (rowsOf date sessionId rows), 0 ≤ cost := by
      intro cost member
      obtain ⟨row, inside, same⟩ := List.mem_map.mp ((kinds sessionId).2.mem_iff.mp member)
      obtain ⟨source, among, equal⟩ := List.mem_map.mp (List.mem_of_mem_filter (List.mem_of_mem_filter (List.mem_of_mem_filter inside)))
      rw [← same, ← equal]
      exact nonneg source among
    rw [get_state, if_neg fun nothing => present ((unread sessionId).mp nothing), Option.map_some,
      Option.getD_some, spend_eq owed,
      current]
    exact share_of_perm (kinds sessionId).1 (kinds sessionId).2
  have known (sessionId : String) : sessionId ∈ sessionsOf date (companionCosts recorded after) ↔
        (addPending (readRows date rows) (pendingLatest date pending)).get sessionId ≠ none := by
    rw [mem_sessionsOf, get_state, Ne, ← unread]
    split
    next nothing => simp [nothing]
    next something => simpa using something
  obtain ⟨sessions, order, shares⟩ :=
    Dict.values_in_order SpendSessionState.spend 0 (List.nodup_dedup _) known
  refine ⟨sessions, fun sessionId => actualCosts (rowsOf date sessionId rows), order, fun sessionId => ⟨0, ?_⟩, ?_⟩
  · rw [List.replicate_zero, List.append_nil]
    exact (kinds sessionId).1
  · rw [reconcile, shares]
    congr 1
    apply List.map_congr_left
    intro sessionId member
    exact spend sessionId (mem_sessionsOf.mp (order.mem_iff.mp member))

/-- Addition without rounding, and a sum that adds up. -/
structure Exact [Add Cost] (sum : List Cost → Cost) : Prop where
  zero_add : ∀ cost : Cost, 0 + cost = cost
  add_comm : ∀ first second : Cost, first + second = second + first
  add_assoc : ∀ first second third : Cost, first + second + third = first + (second + third)
  adds : ∀ costs, sum costs = addUp costs

namespace Exact
variable [Add Cost] {costs others : List Cost}

omit [LinearOrder Cost] in
theorem perm (exact : Exact sum) (same : costs.Perm others) : sum costs = sum others := by
  rw [exact.adds, exact.adds]
  apply same.foldl_eq'
  intro first _ second _ total
  rw [exact.add_assoc, exact.add_comm first, ← exact.add_assoc]

omit [LinearOrder Cost] in
theorem zeros (exact : Exact sum) (costs : List Cost) (count : Nat) :
    sum (costs ++ List.replicate count 0) = sum costs := by
  rw [exact.adds, exact.adds, addUp, List.foldl_append, ← addUp]
  induction count with
  | zero => rfl
  | succ count ih => rw [List.replicate_succ, List.foldl_cons, exact.add_comm, exact.zero_add, ih]

/-- Sums without rounding depend on neither order nor zeros. -/
theorem spend_unique {spend : Cost} (exact : Exact sum) (total : SpendOf sum date recorded estimates spend) :
    spend = addUp ((sessionsOf date (companionCosts recorded estimates)).map fun sessionId =>
      tableShare addUp date recorded estimates
        (actualCosts (rowsOf date sessionId (recorded.map Subtype.val))) sessionId) := by
  obtain ⟨sessions, addends, order, actual, rfl⟩ := total
  have same (sessionId : String) : tableShare sum date recorded estimates (addends sessionId) sessionId =
      tableShare addUp date recorded estimates
        (actualCosts (rowsOf date sessionId (recorded.map Subtype.val))) sessionId := by
    obtain ⟨count, perm⟩ := actual sessionId
    unfold tableShare share
    rw [exact.perm perm, exact.zeros, exact.adds]
  rw [exact.perm (order.map _), exact.adds]
  simp only [same]

end Exact

end Tables

end TokenPak.Companion.DailySpend
