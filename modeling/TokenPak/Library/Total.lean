import Mathlib.Algebra.Order.BigOperators.Group.List
import Mathlib.Tactic.Linarith
import Mathlib.Tactic.Ring

/-! Weighted totals of lists: how they compare when weights or rows change. -/

namespace TokenPak.Library
variable {α β : Type}

def total (weight : α → ℚ) (rows : List α) : ℚ := (rows.map weight).sum

@[simp] theorem total_nil (weight : α → ℚ) : total weight [] = 0 := rfl

@[simp] theorem total_cons (weight : α → ℚ) (row : α) (rows : List α) :
    total weight (row :: rows) = weight row + total weight rows := by simp [total]

@[simp] theorem total_append (weight : α → ℚ) (rows more : List α) :
    total weight (rows ++ more) = total weight rows + total weight more := by simp [total]

variable {weight : α → ℚ} {rows : List α}

theorem total_congr {other : α → ℚ} (same : ∀ row ∈ rows, weight row = other row) :
    total weight rows = total other rows := congrArg List.sum (List.map_congr_left same)

theorem total_mono {other : α → ℚ} (lighter : ∀ row ∈ rows, weight row ≤ other row) :
    total weight rows ≤ total other rows := List.sum_le_sum lighter

theorem total_eq_zero (zero : ∀ row ∈ rows, weight row = 0) : total weight rows = 0 := by
  rw [total_congr zero]
  simp [total]

theorem total_sublist {more : List α} (sub : rows.Sublist more) (nonneg : ∀ row, 0 ≤ weight row) :
    total weight rows ≤ total weight more := by
  refine (sub.map weight).sum_le_sum fun value member => ?_
  obtain ⟨row, _, rfl⟩ := List.mem_map.mp member
  exact nonneg row

theorem total_filter (weight : α → ℚ) (keep : α → Bool) (rows : List α) :
    total weight (rows.filter keep) = total (fun row => if keep row then weight row else 0) rows := by
  induction rows with
  | nil => rfl
  | cons row rows ih =>
    rw [total_cons, List.filter_cons]
    split <;> simp [ih]

theorem total_filter_add (weight : α → ℚ) (keep : α → Bool) (rows : List α) :
    total weight (rows.filter keep) + total weight (rows.filter fun row => ! keep row) =
      total weight rows := by
  induction rows with
  | nil => exact add_zero 0
  | cons row rows ih =>
    rw [List.filter_cons, List.filter_cons, total_cons, ← ih]
    cases keep row with
    | false => exact add_left_comm _ _ _
    | true => exact add_assoc _ _ _

theorem total_fibers [DecidableEq β] (weight : α → ℚ) (key : α → Option β) {keys : List β}
    (distinct : keys.Nodup)
    (rows : List α) : total weight rows =
      total (fun k => total weight (rows.filter (key · = some k))) keys +
        total weight (rows.filter fun row => ∀ k ∈ keys, key row ≠ some k) := by
  induction keys generalizing rows with
  | nil => simp
  | cons first keys ih =>
    obtain ⟨other, distinct⟩ := List.nodup_cons.mp distinct
    rw [total_cons, ← total_filter_add weight (fun row => key row = some first) rows,
      ih distinct (rows.filter fun row => ! decide (key row = some first)), List.filter_filter, ← add_assoc]
    congr 1
    · congr 1
      refine total_congr fun k member => ?_
      rw [List.filter_filter]
      congr 1
      refine List.filter_congr fun row _ => ?_
      have apart : k ≠ first := fun same => other (same ▸ member)
      by_cases keyed : key row = some k <;> simp [keyed, apart]
    · congr 1
      refine List.filter_congr fun row _ => ?_
      simp [Bool.and_comm]

/-- A row that sheds some weight takes that much off the total. -/
theorem total_shed {other : α → ℚ} {row : α} {shed : ℚ} (member : row ∈ rows)
    (lighter : ∀ row ∈ rows, weight row ≤ other row) (sheds : weight row + shed ≤ other row) :
    total weight rows + shed ≤ total other rows := by
  induction rows with
  | nil => cases member
  | cons head rows ih =>
    have rest : ∀ row ∈ rows, weight row ≤ other row :=
      fun row inside => lighter row (List.mem_cons_of_mem _ inside)
    rw [total_cons, total_cons]
    obtain rfl | inside := List.mem_cons.mp member
    · have others : total weight rows ≤ total other rows := total_mono rest
      linarith
    · have first : weight head ≤ other head := lighter head List.mem_cons_self
      have others := ih inside rest
      linarith

end TokenPak.Library

/-! A pool shared out evenly: what does not divide goes to the first places, one for each. -/

namespace TokenPak.Library.EvenShares
variable {pool least : Int} {count place other : Nat}

/-- What the place of an index gets of a pool shared among `count` places. -/
def share (pool : Int) (count place : Nat) : Int :=
  pool / count + if (place : Int) < pool % count then 1 else 0

theorem share_antitone (order : place ≤ other) : share pool count other ≤ share pool count place := by
  unfold share
  split <;> split <;> omega

theorem share_close : share pool count place ≤ share pool count other + 1 := by
  unfold share
  split <;> split <;> omega

theorem least_le_share (places : 0 < count) (fits : least * count ≤ pool) :
    least ≤ share pool count place := by
  have quotient : least ≤ pool / count := (Int.le_ediv_iff_mul_le (by omega)).mpr fits
  unfold share
  split <;> omega

theorem sum_steps (base : Int) (left : Int) (few : 0 ≤ left) (count : Nat) :
    ((List.range count).map fun place : Nat => base + if (place : Int) < left then 1 else 0).sum =
      base * count + min left count := by
  induction count with
  | zero => simp [few]
  | succ count ih =>
    rw [List.range_succ, List.map_append, List.sum_append, ih, List.map_singleton, List.sum_singleton]
    push_cast
    rw [mul_add, mul_one]
    split <;> omega

/-- Nothing of the pool is left, and nothing is given twice. -/
theorem sum_share (places : 0 < count) : ((List.range count).map (share pool count)).sum = pool := by
  have positive : (0 : Int) < count := by omega
  have below := Int.emod_lt_of_pos pool positive
  have rebuilt := Int.mul_ediv_add_emod pool count
  have total := sum_steps (pool / count) (pool % count) (Int.emod_nonneg _ positive.ne') count
  rw [min_eq_left below.le, mul_comm] at total
  exact total.trans rebuilt

theorem share_least (places : 0 < count) :
    least + share (pool - least * count) count place = share pool count place := by
  have positive : (count : Int) ≠ 0 := by omega
  unfold share
  rw [sub_eq_add_neg, ← neg_mul, Int.add_mul_ediv_right _ _ positive, Int.add_mul_emod_self_right]
  omega

/-- One token more than an equal share for each goes to the first place. -/
theorem share_one_more (places : 1 < count) :
    share (least * count + 1) count place = if place = 0 then least + 1 else least := by
  have positive : (count : Int) ≠ 0 := by omega
  have quotient : (least * count + 1) / count = least := by
    rw [add_comm, Int.add_mul_ediv_right _ _ positive, Int.ediv_eq_zero_of_lt (by omega) (by omega), zero_add]
  have left : (least * count + 1) % count = 1 := by
    rw [add_comm, Int.add_mul_emod_self_right, Int.emod_eq_of_lt (by omega) (by omega)]
  rw [share, quotient, left]
  split <;> split <;> omega

theorem shares_descend : ((List.range count).map (share pool count)).Pairwise fun first second => second ≤ first ∧ first ≤ second + 1 := by
  rw [List.pairwise_map]
  apply List.pairwise_lt_range.imp
  intro first second less
  exact ⟨share_antitone less.le, share_close⟩

end TokenPak.Library.EvenShares
