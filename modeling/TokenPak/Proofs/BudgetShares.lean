import TokenPak.Library.Total
import TokenPak.Orchestration.WorkflowBudget

/-! What a workflow budget allocates. While the floor can be paid for, the pending steps have even shares
of what remains, whatever the history was. -/

namespace TokenPak.Orchestration.Budget
open Library EvenShares
variable {dict : Dict String Int} {budget after : WorkflowBudget} {limits : Limits} {step : String}
  {used allocation delta : Int}

section Assignments

variable {key : String}

theorem get_setAll {entries : List (String × Int)} (unique : (entries.map Prod.fst).Nodup)
    {value : Int} (member : (key, value) ∈ entries) :
    (setAll dict entries).get key = some value :=
      Dict.get_foldl_set_of_mem unique member

theorem get_setAll_of_notMem {entries : List (String × Int)}
    (unique : (entries.map Prod.fst).Nodup) (apart : key ∉ entries.map Prod.fst) :
    (setAll dict entries).get key = dict.get key :=
      Dict.get_foldl_set_of_notMem unique apart

theorem keys_named {steps : List String} (value : String → Int) :
    (steps.map fun step => (step, value step)).map Prod.fst = steps := by
  rw [List.map_map]
  exact List.map_id' steps

theorem keys_placed {steps : List String} (value : Nat → Int) :
    (steps.zipIdx.map fun entry => (entry.1, value entry.2)).map Prod.fst = steps := by
  rw [List.map_map]
  exact List.zipIdx_map_fst 0 steps

variable {steps : List String} (distinct : steps.Nodup)
include distinct

theorem get_setAll_named (value : String → Int) (member : key ∈ steps) :
    (setAll dict (steps.map fun step => (step, value step))).get key = some (value key) := by
  exact get_setAll ((keys_named value).symm ▸ distinct) (List.mem_map.mpr ⟨key, member, rfl⟩)

theorem get_setAll_placed (value : Nat → Int) :
    steps.map (setAll dict (steps.zipIdx.map fun entry => (entry.1, value entry.2))).get =
      (List.range steps.length).map fun place => some (value place) := by
  apply List.ext_getElem
  · simp
  · intro place inside _
    rw [List.length_map] at inside
    rw [List.getElem_map, List.getElem_map, List.getElem_range]
    apply get_setAll ((keys_placed value).symm ▸ distinct)
    exact List.mem_map.mpr ⟨(steps[place], place),
      List.mem_zipIdx_iff_getElem?.mpr (List.getElem?_eq_getElem inside), rfl⟩

end Assignments

namespace WorkflowBudget

def allocated (budget : WorkflowBudget) (step : String) : Int := (budget.allocations.get step).getD 0

def Affordable (budget : WorkflowBudget) : Prop := budget.floorTotal ≤ budget.remaining

instance (budget : WorkflowBudget) : Decidable budget.Affordable := inferInstanceAs (Decidable (_ ≤ _))

/-- The allocations of the pending steps, by their places. -/
def Gives (budget : WorkflowBudget) (value : Nat → Int) : Prop :=
  budget.pending.map budget.allocations.get = (List.range budget.pending.length).map fun place =>
    some (value place)

end WorkflowBudget

open WorkflowBudget

section Split

variable {minFloor pool : Int} {steps : List String}

theorem evenSplit_shares (distinct : steps.Nodup) (some_step : steps ≠ [])
    (fits : minFloor * steps.length ≤ pool) :
    steps.map (evenSplit minFloor steps pool).get = (List.range steps.length).map fun place =>
      some (share pool steps.length place) := by
  have places : 0 < steps.length := List.length_pos_iff.mpr some_step
  have floor : minFloor ≤ pool / steps.length := (Int.le_ediv_iff_mul_le (by omega)).mpr fits
  have remainder : pool - pool / steps.length * steps.length = pool % steps.length := by
    have rebuilt := Int.mul_ediv_add_emod pool steps.length
    rw [mul_comm] at rebuilt
    omega
  rw [evenSplit, get_setAll_placed distinct fun place => max (pool / steps.length) minFloor +
    if (place : Int) < pool - pool / steps.length * steps.length then 1 else 0]
  simp only [share, remainder, max_eq_left floor]

theorem floor_le_evenSplit (distinct : steps.Nodup) (member : step ∈ steps) :
    ∃ value, (evenSplit minFloor steps pool).get step = some value ∧ minFloor ≤ value := by
  have read := @get_setAll_placed .empty _ distinct fun place => max (pool / steps.length) minFloor +
    if (place : Int) < pool - pool / steps.length * steps.length then 1 else 0
  have there : (evenSplit minFloor steps pool).get step ∈
      steps.map (evenSplit minFloor steps pool).get :=
    List.mem_map_of_mem member
  rw [evenSplit] at there ⊢
  rw [read] at there
  obtain ⟨place, _, found⟩ := List.mem_map.mp there
  refine ⟨_, found.symm, ?_⟩
  have least : minFloor ≤ max (pool / steps.length) minFloor := le_max_right _ _
  split <;> omega

theorem evenSplit_keys (distinct : steps.Nodup) (key : String) :
    key ∈ steps ↔ (evenSplit minFloor steps pool).get key ≠ none := by
  constructor
  · intro member
    obtain ⟨value, found, _⟩ := @floor_le_evenSplit _ minFloor pool _ distinct member
    rw [found]
    simp
  · intro present
    by_contra apart
    apply present
    have keys := @keys_placed steps fun place => max (pool / steps.length) minFloor +
      if (place : Int) < pool - pool / steps.length * steps.length then 1 else 0
    rw [evenSplit, get_setAll_of_notMem (keys.symm ▸ distinct) (keys.symm ▸ apart)]
    rfl

end Split

section Rebalance

theorem commit_gives {newAllocs : Dict String Int} {value : Nat → Int} (distinct : budget.pending.Nodup)
    (gives : budget.pending.map newAllocs.get = (List.range budget.pending.length).map fun place =>
      some (value place)) :
    (budget.commit newAllocs).Gives value := by
  have same : budget.pending.map (budget.commit newAllocs).allocations.get =
      budget.pending.map newAllocs.get := by
    apply List.map_congr_left
    intro step member
    have read : (budget.commit newAllocs).allocations.get step =
        some ((newAllocs.get step).getD budget.minFloor) :=
      get_setAll_named distinct (fun step => (newAllocs.get step).getD budget.minFloor) member
    have known : newAllocs.get step ∈ budget.pending.map newAllocs.get := List.mem_map_of_mem member
    rw [gives] at known
    obtain ⟨place, _, found⟩ := List.mem_map.mp known
    rw [read, ← found]
    rfl
  exact same.trans gives

theorem keys_withBonus (distinct : budget.pending.Nodup) (key : String) :
    key ∈ budget.pending ↔ (budget.withBonus delta).get key ≠ none := by
  have keys := @evenSplit_keys budget.minFloor budget.remaining _ distinct key
  unfold withBonus
  cases pending : budget.pending with
  | nil =>
    rw [pending] at keys
    exact keys
  | cons first rest =>
    rw [pending] at keys
    dsimp only
    split
    · by_cases named : key = first
      · subst named
        rw [Dict.get_set_self]
        simp
      · rw [Dict.get_set_of_ne named]
        exact keys
    · exact keys

theorem totalAfterFloor_withBonus (distinct : budget.pending.Nodup) :
    budget.totalAfterFloor (budget.withBonus delta) =
    (budget.pending.map fun step =>
      max (((budget.withBonus delta).get step).getD 0) budget.minFloor).sum := by
  rw [totalAfterFloor,
    Dict.sum_values (fun allocation =>
    max allocation budget.minFloor) distinct (keys_withBonus distinct)]
  congr 1
  apply List.map_congr_left
  intro step member
  have known := (@keys_withBonus _ delta distinct step).mp member
  cases found : (budget.withBonus delta).get step with
  | none => exact absurd found known
  | some value => rfl

theorem floorTotal_le (distinct : budget.pending.Nodup) :
    budget.floorTotal ≤ budget.totalAfterFloor (budget.withBonus delta) := by
  rw [totalAfterFloor_withBonus distinct]
  have bound :=
    List.card_nsmul_le_sum (budget.pending.map fun step =>
      max (((budget.withBonus delta).get step).getD 0) budget.minFloor)
    budget.minFloor (by
      intro value member
      obtain ⟨step, _, rfl⟩ := List.mem_map.mp member
      exact le_max_right _ _)
  rw [List.length_map, nsmul_eq_mul, mul_comm] at bound
  exact bound

theorem sum_evenSplit (distinct : budget.pending.Nodup) (some_step : budget.pending ≠ [])
    (affordable : budget.Affordable) :
    (budget.pending.map fun step =>
      ((evenSplit budget.minFloor budget.pending budget.remaining).get step).getD 0).sum =
      budget.remaining := by
  have shares := congrArg (List.map fun held => held.getD 0) (evenSplit_shares distinct some_step affordable)
  rw [List.map_map, List.map_map] at shares
  have total := @sum_share budget.remaining _ (List.length_pos_iff.mpr some_step)
  calc (budget.pending.map fun step =>
    ((evenSplit budget.minFloor budget.pending budget.remaining).get step).getD 0).sum
    _ = ((List.range budget.pending.length).map (share budget.remaining budget.pending.length)).sum := congrArg List.sum shares
    _ = budget.remaining := total

theorem bonus_exceeds (distinct : budget.pending.Nodup) (some_step : budget.pending ≠ [])
    (affordable : budget.Affordable) (positive : 0 < delta) :
    budget.remaining < budget.totalAfterFloor (budget.withBonus delta) := by
  have total := sum_evenSplit distinct some_step affordable
  rw [totalAfterFloor_withBonus distinct]
  unfold withBonus
  cases pending : budget.pending with
  | nil => exact absurd pending some_step
  | cons first rest =>
    rw [pending] at distinct total
    obtain ⟨fresh, _⟩ := List.nodup_cons.mp distinct
    simp only [if_pos positive, List.map_cons, List.sum_cons] at total ⊢
    rw [Dict.get_set_self]
    have others : (rest.map fun step =>
      ((evenSplit budget.minFloor (first :: rest) budget.remaining).get step).getD 0).sum ≤
        (rest.map fun step => max ((((evenSplit budget.minFloor (first :: rest) budget.remaining).set first
          (((evenSplit budget.minFloor (first :: rest) budget.remaining).get first).getD 0 + delta)).get step).getD 0) budget.minFloor).sum := by
      apply List.sum_le_sum
      intro step member
      have apart : step ≠ first := by
        rintro rfl
        exact fresh member
      rw [Dict.get_set_of_ne apart]
      exact le_max_left _ _
    have here :=
      le_max_left (((evenSplit budget.minFloor (first :: rest) budget.remaining).get first).getD 0 +
        delta) budget.minFloor
    simp only [Option.getD_some] at here ⊢
    omega

theorem shareExtra_gives {newAllocs : Dict String Int} (distinct : budget.pending.Nodup)
    (some_step : budget.pending ≠ []) :
    budget.pending.map (budget.shareExtra newAllocs).get =
      (List.range budget.pending.length).map fun place =>
          some (share budget.remaining budget.pending.length place) := by
  have read := @get_setAll_placed newAllocs _ distinct fun place => budget.minFloor +
    share (budget.remaining - budget.floorTotal) budget.pending.length place
  refine Eq.trans read ?_
  apply List.map_congr_left
  intro place _
  rw [floorTotal, share_least (List.length_pos_iff.mpr some_step)]

theorem rebalance_frame :
    (budget.rebalance step delta).2.pending = budget.pending ∧
    (budget.rebalance step delta).2.remaining = budget.remaining ∧
    (budget.rebalance step delta).2.minFloor = budget.minFloor ∧
      (budget.rebalance step delta).2.total = budget.total ∧
    (budget.rebalance step delta).2.usage = budget.usage ∧
      (budget.rebalance step delta).2.steps = budget.steps := by
  unfold rebalance
  split <;> exact ⟨rfl, rfl, rfl, rfl, rfl, rfl⟩

/-- While the floor can be paid for, the shares are even whatever the bonus is. -/
theorem rebalance_affordable (distinct : budget.pending.Nodup) (some_step : budget.pending ≠ [])
    (nonneg : 0 ≤ budget.remaining)
    (affordable : budget.Affordable) :
    (budget.rebalance step delta).2.Gives (share budget.remaining budget.pending.length) := by
  rw [rebalance, if_neg some_step]
  apply commit_gives distinct
  unfold enforceFloor
  split
  next =>
    rw [if_pos (show budget.floorTotal ≤ budget.remaining from affordable)]
    exact shareExtra_gives distinct some_step
  next fits =>
    have no_bonus : ¬ 0 < delta :=
      fun positive => fits ⟨bonus_exceeds distinct some_step affordable positive, nonneg⟩
    have plain : budget.withBonus delta = evenSplit budget.minFloor budget.pending budget.remaining := by
      unfold withBonus
      cases budget.pending with
      | nil => rfl
      | cons first rest => exact if_neg no_bonus
    rw [plain]
    exact evenSplit_shares distinct some_step affordable

theorem rebalance_unaffordable (distinct : budget.pending.Nodup) (some_step : budget.pending ≠ [])
    (nonneg : 0 ≤ budget.remaining)
    (short : ¬ budget.Affordable) : (budget.rebalance step delta).2.Gives fun _ => budget.minFloor := by
  have exceeds : budget.totalAfterFloor (budget.withBonus delta) > budget.remaining :=
    lt_of_lt_of_le (not_le.mp short) (floorTotal_le distinct)
  rw [rebalance, if_neg some_step]
  apply commit_gives distinct
  rw [enforceFloor, if_pos ⟨exceeds, nonneg⟩, if_neg (show ¬ budget.floorTotal ≤ budget.remaining from short)]
  apply List.ext_getElem
  · simp
  · intro place inside _
    rw [List.length_map] at inside
    rw [List.getElem_map, List.getElem_map]
    exact get_setAll_named distinct (fun _ => budget.minFloor) (List.getElem_mem inside)

end Rebalance

section Runs

theorem recordUsage_eq_ok {events : List BudgetEvent}
    (recorded : budget.recordUsage limits step used = .ok (events, after)) :
    step ∈ budget.pending ∧ 0 ≤ used ∧ ∃ allocation, budget.allocations.get step = some allocation ∧
      after = ((budget.charge step used).rebalance step (allocation - used)).2 ∧
      events = usageEvents limits (budget.charge step used) step used allocation ++
        ((budget.charge step used).rebalance step (allocation - used)).1 := by
  unfold recordUsage at recorded
  split at recorded
  next => cases recorded
  next =>
    split at recorded
    next => cases recorded
    next pending =>
      split at recorded
      next => cases recorded
      next nonneg =>
        refine ⟨not_not.mp pending, not_lt.mp nonneg, ?_⟩
        cases found : budget.allocations.get step with
        | none =>
          rw [found] at recorded
          cases recorded
        | some allocation =>
          rw [found] at recorded
          dsimp only at recorded
          refine ⟨allocation, rfl, ?_⟩
          split at recorded
          next none_left =>
            cases recorded
            rw [rebalance, if_pos none_left, List.append_nil]
            exact ⟨rfl, rfl⟩
          next =>
            cases recorded
            exact ⟨rfl, rfl⟩

/-- The budgets that valid calls lead to, with the calls. -/
inductive Reached (limits : Limits) (total : Int) (steps : List String) (minFloor : Int) :
    List (String × Int) → WorkflowBudget → Prop
  | start {budget : WorkflowBudget} (made : create total steps minFloor = .ok budget) : Reached limits total steps minFloor [] budget
  | record {calls : List (String × Int)} {budget after : WorkflowBudget} {step : String} {used : Int} {events : List BudgetEvent}
      (reached : Reached limits total steps minFloor calls budget)
      (recorded : budget.recordUsage limits step used = .ok (events, after)) :
      Reached limits total steps minFloor (calls ++ [(step, used)]) after

structure Sound (total : Int) (steps : List String) (minFloor : Int) (calls : List (String × Int))
    (budget : WorkflowBudget) : Prop where
  sameTotal : budget.total = total
  sameSteps : budget.steps = steps
  sameFloor : budget.minFloor = minFloor
  distinct : budget.pending.Nodup
  known : ∀ step ∈ budget.pending, step ∈ budget.steps
  unused : ∀ step ∈ budget.pending, budget.usage.get step = none
  usage : budget.usage.values.sum = (calls.map Prod.snd).sum
  remaining : budget.remaining = max 0 (total - (calls.map Prod.snd).sum)
  floor : ∀ step ∈ budget.pending, ∃ value, budget.allocations.get step = some value ∧ minFloor ≤ value
  even : budget.pending ≠ [] → budget.Affordable → budget.Gives (share budget.remaining budget.pending.length)
  short : calls ≠ [] → ¬ budget.Affordable → budget.Gives fun _ => minFloor

variable {total minFloor : Int} {steps : List String} {calls : List (String × Int)}

theorem sound_start (distinct : steps.Nodup) (made : create total steps minFloor = .ok budget) :
    Sound total steps minFloor [] budget := by
  unfold create at made
  split at made
  next => cases made
  next positive =>
    split at made
    next => cases made
    next some_step =>
      split at made
      next => cases made
      next =>
        cases made
        exact {
          sameTotal := rfl
          sameSteps := rfl
          sameFloor := rfl
          distinct := distinct
          known := fun step member => member
          unused := fun step member => rfl
          usage := rfl
          remaining := by
            simp only [List.map_nil, List.sum_nil]
            omega
          floor := fun step member => floor_le_evenSplit distinct member
          even := fun _ affordable => evenSplit_shares distinct some_step affordable
          short := fun called => absurd rfl called }

theorem WorkflowBudget.Gives.get {value : Nat → Int} (gives : budget.Gives value)
    (member : step ∈ budget.pending) :
    ∃ place, budget.allocations.get step = some (value place) := by
  have there : budget.allocations.get step ∈ budget.pending.map budget.allocations.get :=
    List.mem_map_of_mem member
  rw [gives] at there
  obtain ⟨place, _, found⟩ := List.mem_map.mp there
  exact ⟨place, found.symm⟩

theorem Sound.record {events : List BudgetEvent} (sound : Sound total steps minFloor calls budget)
    (recorded : budget.recordUsage limits step used = .ok (events, after)) :
    Sound total steps minFloor (calls ++ [(step, used)]) after := by
  obtain ⟨member, nonneg, allocation, found, rfl, _⟩ := recordUsage_eq_ok recorded
  obtain ⟨pending, remaining, floor, total', usage, steps'⟩ := @rebalance_frame (budget.charge step used) step
    (allocation - used)
  have distinct : (budget.charge step used).pending.Nodup := sound.distinct.erase step
  have enough : 0 ≤ (budget.charge step used).remaining := by
    dsimp only [charge]
    split <;> omega
  have floored : (budget.charge step used).minFloor = minFloor := sound.sameFloor
  have sum : ((calls ++ [(step, used)]).map Prod.snd).sum = (calls.map Prod.snd).sum + used := by simp
  have even : (budget.charge step used).pending ≠ [] → (budget.charge step used).Affordable →
      ((budget.charge step used).rebalance step (allocation - used)).2.Gives
        (share (budget.charge step used).remaining (budget.charge step used).pending.length) :=
    fun some_step => rebalance_affordable distinct some_step enough
  have short : ¬ (budget.charge step used).Affordable →
      ((budget.charge step used).rebalance step (allocation - used)).2.Gives fun _ => minFloor := by
    intro unaffordable
    by_cases none_left : (budget.charge step used).pending = []
    · rw [Gives, pending, none_left]
      rfl
    · rw [← floored]
      exact rebalance_unaffordable distinct none_left enough unaffordable
  have alike : ((budget.charge step used).rebalance step (allocation - used)).2.Affordable ↔
      (budget.charge step used).Affordable := by
    simp only [Affordable, floorTotal, pending, remaining, floor]
  exact {
    sameTotal := total'.trans sound.sameTotal
    sameSteps := steps'.trans sound.sameSteps
    sameFloor := floor.trans sound.sameFloor
    distinct := pending.symm ▸ distinct
    known := by
      intro other there
      rw [pending] at there
      rw [steps']
      exact sound.known other (List.mem_of_mem_erase there)
    unused := by
      intro other there
      rw [pending] at there
      obtain ⟨apart, before⟩ := (List.Nodup.mem_erase_iff sound.distinct).mp there
      rw [usage]
      exact (Dict.get_set_of_ne apart).trans (sound.unused other before)
    usage := by
      rw [usage, sum, ← sound.usage]
      show (budget.usage.set step used).values.sum = _
      rw [Dict.values_set_new (sound.unused step member), List.sum_append, List.sum_singleton]
    remaining := by
      rw [remaining, sum]
      have before := sound.remaining
      show (if budget.remaining - used < 0 then 0 else budget.remaining - used) = _
      split <;> omega
    floor := by
      intro other there
      have inside := there
      rw [pending] at there
      have some_step : (budget.charge step used).pending ≠ [] := List.ne_nil_of_mem there
      by_cases affordable : (budget.charge step used).Affordable
      · obtain ⟨place, found⟩ := (even some_step affordable).get inside
        refine ⟨_, found, ?_⟩
        rw [← floored]
        exact least_le_share (List.length_pos_iff.mpr some_step) affordable
      · obtain ⟨_, found⟩ := (short affordable).get inside
        exact ⟨minFloor, found, le_rfl⟩
    even := by
      intro some_step affordable
      rw [pending] at some_step
      rw [alike] at affordable
      rw [remaining, pending]
      exact even some_step affordable
    short := by
      intro _ unaffordable
      rw [alike] at unaffordable
      exact short unaffordable }

theorem Reached.sound (distinct : steps.Nodup) (reached : Reached limits total steps minFloor calls budget) :
    Sound total steps minFloor calls budget := by
  induction reached with
  | start made => exact sound_start distinct made
  | record _ recorded ih => exact ih.record recorded

theorem WorkflowBudget.Gives.allocated {value : Nat → Int} (gives : budget.Gives value) :
    budget.pending.map budget.allocated = (List.range budget.pending.length).map value := by
  have values := congrArg (List.map fun held => held.getD 0) gives
  rw [List.map_map, List.map_map] at values
  exact values

/-- The budget is conserved after any history of valid calls. -/
theorem budget_conserved (distinct : steps.Nodup)
    (reached : Reached limits total steps minFloor calls budget) :
    budget.usage.values.sum = (calls.map Prod.snd).sum ∧
      budget.remaining = max 0 (total - budget.usage.values.sum) ∧
      (∀ step ∈ budget.pending, budget.stepAllocation step = .ok (budget.allocated step) ∧
        minFloor ≤ budget.allocated step) ∧
      (budget.pending ≠ [] → minFloor * budget.pending.length ≤ budget.remaining →
        (budget.pending.map budget.allocated).sum = budget.remaining) ∧
      (calls ≠ [] → ¬ minFloor * budget.pending.length ≤ budget.remaining →
          ∀ step ∈ budget.pending, budget.allocated step = minFloor) := by
  have sound := reached.sound distinct
  have alike : budget.Affordable ↔ minFloor * budget.pending.length ≤ budget.remaining := by
    rw [Affordable, floorTotal, sound.sameFloor]
  refine ⟨sound.usage, sound.usage ▸ sound.remaining, ?_, ?_, ?_⟩
  · intro step member
    obtain ⟨value, found, least⟩ := sound.floor step member
    simp [stepAllocation, WorkflowBudget.allocated, found, least]
  · intro some_step affordable
    rw [(sound.even some_step (alike.mpr affordable)).allocated]
    exact sum_share (List.length_pos_iff.mpr some_step)
  · intro called unaffordable step member
    obtain ⟨_, found⟩ := (sound.short called fun affordable => unaffordable (alike.mp affordable)).get member
    simp [WorkflowBudget.allocated, found]

end Runs

section Examples

def noLimits : Limits := ⟨fun _ _ => false, fun _ => 0⟩

/-- The budget of a workflow of three steps, before and after the first one. -/
def threeSteps : WorkflowBudget :=
  ⟨100, ["a", "b", "c"], 0, ["a", "b", "c"], evenSplit 0 ["a", "b", "c"] 100, .empty, 100⟩

def afterFirst : List BudgetEvent × WorkflowBudget := ((threeSteps.charge "a" 4).rebalance "a" 30)

theorem threeSteps_reached : Reached noLimits 100 ["a", "b", "c"] 0 [] threeSteps := .start rfl

theorem afterFirst_recorded : threeSteps.recordUsage noLimits "a" 4 =
    .ok (usageEvents noLimits (threeSteps.charge "a" 4) "a" 4 34 ++ afterFirst.1, afterFirst.2) := by
  rfl

theorem threeSteps_conserved : (afterFirst.2.pending.map afterFirst.2.allocated).sum = 96 :=
  (budget_conserved (by decide) (threeSteps_reached.record afterFirst_recorded)).2.2.2.1 (by decide +kernel) (by decide +kernel)

/-- With no step pending there is nothing to allocate, and what remains is left. -/
theorem not_conserved_at_end : ∃ calls budget, Reached noLimits 10 ["a"] 0 calls budget ∧
    0 * (budget.pending.length : Int) ≤ budget.remaining ∧
      (budget.pending.map budget.allocated).sum ≠ budget.remaining := by
  refine ⟨[("a", 3)], _, .record (.start rfl) rfl, ?_⟩
  decide +kernel

end Examples

end TokenPak.Orchestration.Budget

/-! The bonus that is reported for an underspent step, and what the pending steps have afterwards. -/

namespace TokenPak.Orchestration.Budget
open Library EvenShares WorkflowBudget
variable {budget after : WorkflowBudget} {limits : Limits} {step : String}
  {used allocation delta : Int} {events : List BudgetEvent}
  {total minFloor : Int} {steps : List String} {calls : List (String × Int)}

/-- The reported bonus is what the step named in the event has got, and the other pending steps have
what they had. -/
def BonusGranted (budget : WorkflowBudget) (events : List BudgetEvent) (after : WorkflowBudget) : Prop :=
  ∃ step delta bonusStep bonusTokens, ⟨.rebalanced, step, .bonus delta bonusStep bonusTokens⟩ ∈ events ∧
    after.allocated bonusStep = budget.allocated bonusStep + bonusTokens ∧
    ∀ other ∈ after.pending, other ≠ bonusStep → after.allocated other = budget.allocated other

section Events

theorem usageEvents_kind {event : BudgetEvent}
    (member : event ∈ usageEvents limits budget step used allocation) :
    event.kind ≠ .rebalanced := by
  unfold usageEvents at member
  simp only [List.mem_append] at member
  rcases member with ((member | member) | member) | member
  · rw [List.mem_singleton.mp member]
    simp
  all_goals
    split at member
    · rw [List.mem_singleton.mp member]
      simp
    · cases member

theorem enforceFloor_kind {newAllocs : Dict String Int} {event : BudgetEvent}
    (member : event ∈ (budget.enforceFloor step newAllocs).1) :
    event.kind ≠ .rebalanced := by
  unfold enforceFloor at member
  split at member
  · split at member
    · cases member
    · rw [List.mem_singleton.mp member]
      simp
  · cases member

theorem bonus_mem_iff {rest : List String} {first trigger bonusStep : String} {bonus : Int}
    (pending : budget.pending = first :: rest) (surplus : 0 < delta) :
    (⟨.rebalanced, trigger, .bonus bonus bonusStep allocation⟩ : BudgetEvent) ∈
      (budget.rebalance step delta).1 ↔
      trigger = step ∧ bonus = delta ∧ bonusStep = first ∧ allocation = delta := by
  have some_step : budget.pending ≠ [] := by
    rw [pending]
    simp
  have reported : budget.rebalanceEvents step delta = [⟨.rebalanced, step, .bonus delta first delta⟩] := by
    rw [rebalanceEvents, pending]
    exact if_pos surplus
  rw [rebalance, if_neg some_step, reported]
  constructor
  · intro member
    rcases List.mem_append.mp member with member | member
    · simpa using member
    · exact absurd rfl (enforceFloor_kind member)
  · rintro ⟨rfl, rfl, rfl, rfl⟩
    exact List.mem_append_left _ List.mem_cons_self

end Events

section Shares

/-- The shares of the steps in front are larger, by one at most. -/
theorem descends (even : budget.Gives (share budget.remaining budget.pending.length)) :
    budget.pending.Pairwise fun first second =>
      budget.allocated second ≤
          budget.allocated first ∧ budget.allocated first ≤ budget.allocated second + 1 := by
  have shares := @shares_descend budget.remaining budget.pending.length
  rw [← even.allocated, List.pairwise_map] at shares
  exact shares

/-- Shares that grow by a bonus for the first step and stay the same for the others. -/
theorem all_equal_of_bonus {first second : String} {rest : List String} {old new : String → Int}
    (before : (first :: second :: rest).Pairwise fun first second => old second ≤ old first ∧ old first ≤ old second + 1)
    (now : (first :: second :: rest).Pairwise fun first second => new second ≤ new first ∧ new first ≤ new second + 1)
    (surplus : 0 < delta) (granted : new first = old first + delta)
    (kept : ∀ other ∈ second :: rest, new other = old other) :
    delta = 1 ∧ ∀ other ∈ second :: rest, old other = old first := by
  have bounds : ∀ other ∈ second :: rest, delta = 1 ∧ old other = old first := by
    intro other member
    obtain ⟨below, _⟩ := (List.pairwise_cons.mp before).1 other member
    obtain ⟨_, above⟩ := (List.pairwise_cons.mp now).1 other member
    rw [granted, kept other member] at above
    omega
  exact ⟨(bounds second List.mem_cons_self).1, fun other member => (bounds other member).2⟩

theorem sum_erase {value : String → Int} {steps : List String} (member : step ∈ steps) :
    ((steps.erase step).map value).sum = (steps.map value).sum - value step := by
  have split := (List.perm_cons_erase member).map value
  rw [split.sum_eq, List.map_cons, List.sum_cons]
  omega

theorem sum_const {value : String → Int} {steps : List String} {same : Int}
    (all : ∀ step ∈ steps, value step = same) :
    (steps.map value).sum = same * steps.length := by
  rw [List.map_congr_left all, List.map_const', List.sum_replicate, nsmul_eq_mul, mul_comm]

end Shares

theorem Reached.nonneg (reached : Reached limits total steps minFloor calls budget) : 0 ≤ minFloor := by
  induction reached with
  | start made =>
    unfold create at made
    split at made
    · cases made
    · split at made
      · cases made
      · split at made
        · cases made
        · omega
  | record _ _ ih => exact ih

/-- The bonus is granted just when one step is left, or one token is left over equal shares. -/
theorem bonus_granted_iff (distinct : steps.Nodup)
    (reached : Reached limits total steps minFloor calls budget)
    (recorded : budget.recordUsage limits step used = .ok (events, after))
    (before : minFloor * budget.pending.length ≤ budget.remaining)
    (afterwards : minFloor * after.pending.length ≤ after.remaining)
    (left : after.pending ≠ []) (under : used < budget.allocated step) :
    BonusGranted budget events after ↔ (budget.pending.erase step).length = 1 ∨
      (used + 1 = budget.allocated step ∧
        ∀ first ∈ budget.pending.erase step, ∀ second ∈ budget.pending.erase step, budget.allocated first = budget.allocated second) := by
  have sound := reached.sound distinct
  have sound' := sound.record recorded
  obtain ⟨member, nonneg, allocation, found, same, reported⟩ := recordUsage_eq_ok recorded
  have known : budget.allocated step = allocation := by rw [WorkflowBudget.allocated, found, Option.getD_some]
  have pending : after.pending = budget.pending.erase step := by
    rw [same, rebalance_frame.1]
    rfl
  have some_step : budget.pending ≠ [] := List.ne_nil_of_mem member
  have even : budget.Gives (share budget.remaining budget.pending.length) :=
    sound.even some_step (by rwa [Affordable, floorTotal, sound.sameFloor])
  have even' : after.Gives (share after.remaining after.pending.length) :=
    sound'.even left (by rwa [Affordable, floorTotal, sound'.sameFloor])
  have old := (descends even).sublist (List.erase_sublist (a := step))
  have new := descends even'
  -- what the call leaves is what the pending steps had, and the surplus
  have whole : (budget.pending.map budget.allocated).sum = budget.remaining := by
    rw [even.allocated]
    exact sum_share (List.length_pos_iff.mpr some_step)
  have remaining : after.remaining = ((budget.pending.erase step).map budget.allocated).sum +
      (budget.allocated step - used) := by
    have some_left : budget.remaining - used =
        ((budget.pending.erase step).map budget.allocated).sum +
        (budget.allocated step - used) := by
      rw [sum_erase member, whole]
      omega
    have floor : ∀ value ∈ (budget.pending.erase step).map budget.allocated, minFloor ≤ value := by
      intro value there
      obtain ⟨other, inside, rfl⟩ := List.mem_map.mp there
      obtain ⟨value, held, least⟩ := sound.floor other (List.mem_of_mem_erase inside)
      rwa [WorkflowBudget.allocated, held]
    have positive := reached.nonneg
    have rest : 0 ≤ ((budget.pending.erase step).map budget.allocated).sum :=
      List.sum_nonneg fun value there => positive.trans (floor value there)
    rw [same, rebalance_frame.2.1]
    show (if budget.remaining - used < 0 then 0 else budget.remaining - used) = _
    split <;> omega
  have total' : (after.pending.map after.allocated).sum = after.remaining := by
    rw [even'.allocated]
    exact sum_share (List.length_pos_iff.mpr left)
  rw [← pending] at old remaining ⊢
  obtain ⟨first, rest, shape⟩ := List.exists_cons_of_ne_nil left
  have event : BonusGranted budget events after ↔
    after.allocated first = budget.allocated first + (allocation - used) ∧
      ∀ other ∈ after.pending, other ≠ first → after.allocated other = budget.allocated other := by
    have charged : (budget.charge step used).pending = first :: rest := pending.symm.trans shape
    constructor
    · rintro ⟨trigger, delta, bonusStep, bonus, there, granted, kept⟩
      rw [reported] at there
      rcases List.mem_append.mp there with there | there
      · exact absurd rfl (usageEvents_kind there)
      · obtain ⟨_, _, rfl, rfl⟩ := (bonus_mem_iff charged (by omega)).mp there
        exact ⟨granted, kept⟩
    · intro granted
      refine ⟨step, allocation - used, first, allocation - used, ?_, granted⟩
      rw [reported]
      exact List.mem_append_right _ ((bonus_mem_iff charged (by omega)).mpr ⟨rfl, rfl, rfl, rfl⟩)
  have fresh : first ∉ rest := (List.nodup_cons.mp (shape ▸ sound'.distinct)).1
  rw [event, shape]
  rw [shape] at old new remaining total'
  cases rest with
  | nil =>
    simp only [List.map_cons, List.map_nil, List.sum_cons, List.sum_nil] at remaining total'
    constructor
    · exact fun _ => .inl rfl
    · intro _
      refine ⟨by omega, ?_⟩
      intro other there apart
      exact absurd (List.mem_singleton.mp there) apart
  | cons second rest =>
    constructor
    · intro ⟨granted, kept⟩
      have others : ∀ other ∈ second :: rest, after.allocated other = budget.allocated other := by
        intro other there
        apply kept other (List.mem_cons_of_mem _ there)
        rintro rfl
        exact fresh there
      obtain ⟨one, equal⟩ := all_equal_of_bonus old new (by omega) granted others
      have equal' : ∀ other ∈ first :: second :: rest, budget.allocated other = budget.allocated first := by
        intro other there
        rcases List.mem_cons.mp there with rfl | there
        · rfl
        · exact equal other there
      refine .inr ⟨by omega, ?_⟩
      intro one there another there'
      rw [equal' one there, equal' another there']
    · intro condition
      rcases condition with single | ⟨one, equal⟩
      · simp at single
      · have several : 1 < after.pending.length := by
          rw [shape]
          simp
        have pool : after.remaining = budget.allocated first * after.pending.length + 1 := by
          rw [remaining, sum_const fun other there => equal other there first List.mem_cons_self, shape]
          omega
        have given : ∀ place : Nat, ∀ inside : place < after.pending.length,
          after.allocated after.pending[place] =
            if place = 0 then budget.allocated first + 1 else budget.allocated first := by
          intro place inside
          have shares := even'.allocated
          rw [← share_one_more several, ← pool]
          have entry := congrArg (fun values => values[place]?) shares
          simpa [inside] using entry
        constructor
        · have head := given 0 (by omega)
          simp only [shape, List.getElem_cons_zero, if_true] at head
          omega
        · intro other there apart
          rw [← shape] at there
          obtain ⟨place, inside, rfl⟩ := List.mem_iff_getElem.mp there
          have later : place ≠ 0 := by
            rintro rfl
            apply apart
            simp only [shape, List.getElem_cons_zero]
          rw [given place inside, if_neg later]
          exact equal first List.mem_cons_self _ (shape ▸ there)

section Examples

def oneTokenLess : List BudgetEvent × WorkflowBudget := (threeSteps.charge "a" 33).rebalance "a" 1

theorem oneTokenLess_recorded : threeSteps.recordUsage noLimits "a" 33 =
    .ok (usageEvents noLimits (threeSteps.charge "a" 33) "a" 33 34 ++ oneTokenLess.1, oneTokenLess.2) := by
  rfl

/-- One token of equal shares is left over. -/
theorem oneTokenLess_granted :
    BonusGranted threeSteps (usageEvents noLimits (threeSteps.charge "a" 33) "a" 33 34 ++
    oneTokenLess.1) oneTokenLess.2 :=
  (bonus_granted_iff (by decide) threeSteps_reached oneTokenLess_recorded (by decide +kernel) (by decide +kernel) (by decide +kernel)
    (by decide +kernel)).mpr (.inr (by decide +kernel))

/-- A bonus of thirty is reported for `b`, which gets fifteen. -/
theorem bonus_not_granted : ∃ budget after events, Reached noLimits 100 ["a", "b", "c"] 0 [] budget ∧
    budget.recordUsage noLimits "a" 4 = .ok (events, after) ∧
      0 * (budget.pending.length : Int) ≤ budget.remaining ∧
    0 * (after.pending.length : Int) ≤ after.remaining ∧ after.pending ≠ [] ∧ 4 < budget.allocated "a" ∧
    ⟨.rebalanced, "a", .bonus 30 "b" 30⟩ ∈ events ∧ after.allocated "b" ≠ budget.allocated "b" + 30 :=
  ⟨threeSteps, afterFirst.2, _, threeSteps_reached, afterFirst_recorded, by decide +kernel⟩

end Examples

end TokenPak.Orchestration.Budget
