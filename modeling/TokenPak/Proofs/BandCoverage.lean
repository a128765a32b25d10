import Mathlib.Data.List.GetD
import Mathlib.Data.Rat.Floor
import TokenPak.Proxy.ForecastCalibration

/-! How much of its calibration sample a widened band contains. The widening is a quantile of the
misses, and a quantile has the values up to its place below it. -/

namespace TokenPak.Proxy.ForecastCalibration

theorem length_filter_le_of_imp {F : Type} {values : List F} {test other : F → Bool}
    (implies : ∀ y ∈ values, test y = true → other y = true) :
    (values.filter test).length ≤ (values.filter other).length := by
  rw [← List.countP_eq_length_filter, ← List.countP_eq_length_filter]
  exact List.countP_mono_left implies

section Quantiles
variable {F : Type} [Field F] [LinearOrder F] [IsStrictOrderedRing F] [FloorRing F]
  {values calib : List F} {q lo hi widen : F}

omit [Field F] [IsStrictOrderedRing F] [FloorRing F] in
theorem getElem_le_getElem {ordered : List F} (sorted : ordered.Pairwise (· ≤ ·))
    {first second : Nat} (order : first ≤ second)
    (before : first < ordered.length) (inside : second < ordered.length) :
    ordered[first] ≤ ordered[second] := by
  rcases order.eq_or_lt with rfl | less
  · exact le_rfl
  · exact List.pairwise_iff_getElem.mp sorted first second before inside less

omit [Field F] [IsStrictOrderedRing F] [FloorRing F] in
theorem lt_length_filter {ordered : List F} (sorted : ordered.Pairwise (· ≤ ·)) {place : Nat}
    (inside : place < ordered.length) {v : F}
    (below : ordered[place] ≤ v) : place < (ordered.filter fun x => decide (x ≤ v)).length := by
  have front : (ordered.take (place + 1)).filter (fun x => decide (x ≤ v)) = ordered.take (place + 1) := by
    apply List.filter_eq_self.mpr
    intro x member
    obtain ⟨other, early, rfl⟩ := List.mem_take_iff_getElem.mp member
    apply decide_eq_true
    refine le_trans ?_ below
    exact getElem_le_getElem sorted (by omega) _ inside
  have shorter := ((List.take_sublist (place + 1) ordered).filter fun x => decide (x ≤ v)).length_le
  rw [front, List.length_take] at shorter
  omega

/-- A quantile has all values up to its place below it. -/
theorem quantile_spec (some_value : values ≠ []) (nonneg : 0 ≤ q) (most : q ≤ 1) :
    ∃ v, ∃ place : Nat, quantile values q = .ok v ∧ ((values.length : F) - 1) * q < place + 1 ∧
      place < (values.filter fun x => decide (x ≤ v)).length := by
  have sorted := List.pairwise_insertionSort (· ≤ ·) values
  have size := values.length_insertionSort (· ≤ ·)
  have counted : ∀ v,
      ((values.insertionSort (· ≤ ·)).filter fun x => decide (x ≤ v)).length =
      (values.filter fun x => decide (x ≤ v)).length :=
    fun v => ((List.perm_insertionSort (· ≤ ·) values).filter _).length_eq
  have positive : 1 ≤ values.length := List.length_pos_iff.mpr some_value
  have some_ordered : values.insertionSort (· ≤ ·) ≠ [] := by
    rw [← List.length_pos_iff, size]
    exact positive
  have clamped : min (max q 0) 1 = q := by rw [max_eq_left nonneg, min_eq_left most]
  have last : (0 : F) ≤ (values.length : F) - 1 := by
    have := (Nat.one_le_cast (α := F)).mpr positive
    linarith
  have low : (0 : F) ≤ ((values.length : F) - 1) * q := mul_nonneg last nonneg
  have high : ((values.length : F) - 1) * q ≤ ((values.length - 1 : Nat) : F) := by
    rw [Nat.cast_sub positive, Nat.cast_one]
    exact mul_le_of_le_one_right last most
  unfold quantile
  dsimp only
  rw [if_neg some_ordered, clamped, size]
  generalize ((values.length : F) - 1) * q = pos at low high
  have floor_nonneg : 0 ≤ ⌊pos⌋ := Int.floor_nonneg.mpr low
  have ceil_le : ⌈pos⌉ ≤ ((values.length - 1 : Nat) : Int) := Int.ceil_le.mpr (by exact_mod_cast high)
  have ordered : ⌊pos⌋ ≤ ⌈pos⌉ := Int.floor_le_ceil pos
  have inside : ⌊pos⌋.toNat < (values.insertionSort (· ≤ ·)).length := by omega
  have inside' : ⌈pos⌉.toNat < (values.insertionSort (· ≤ ·)).length := by omega
  have next : pos < (⌊pos⌋.toNat : F) + 1 := by
    have cast : ((⌊pos⌋.toNat : Int) : F) = (⌊pos⌋ : F) := by rw [Int.toNat_of_nonneg floor_nonneg]
    have above := Int.lt_floor_add_one pos
    rw [← cast] at above
    exact_mod_cast above
  have read : ∀ place : Int, ∀ there : place.toNat < (values.insertionSort (· ≤ ·)).length,
      (values.insertionSort (· ≤ ·)).getD place.toNat 0 = (values.insertionSort (· ≤ ·))[place.toNat] :=
    fun place there => List.getD_eq_getElem _ _ there
  rw [read _ inside, read _ inside']
  split
  next => exact ⟨_, ⌊pos⌋.toNat, rfl, next, counted _ ▸ lt_length_filter sorted inside le_rfl⟩
  next =>
    refine ⟨_, ⌊pos⌋.toNat, rfl, next, counted _ ▸ lt_length_filter sorted inside ?_⟩
    -- interpolation stays above its lower end
    have steps := getElem_le_getElem sorted (show ⌊pos⌋.toNat ≤ ⌈pos⌉.toNat by omega) inside inside'
    have fraction : 0 ≤ pos - ⌊pos⌋ := sub_nonneg.mpr (Int.floor_le pos)
    have rise := mul_nonneg (sub_nonneg.mpr steps) fraction
    linarith

/-- The place of the widening is that of the target, for a target with one part in `whole + 1` left out. -/
theorem rank_enough {whole n place : Nat} (some_left : 1 ≤ n)
    (beyond : ((n : F) - 1) * min 1 ((whole : F) / (whole + 1) * (1 + 1 / (max 1 n : Nat))) < place + 1) :
    (whole : F) / (whole + 1) * n ≤ (place + 1 : Nat) := by
  have size : (0 : F) < n := Nat.cast_pos.mpr some_left
  have parts : (0 : F) < (whole : F) + 1 := Nat.cast_add_one_pos whole
  rw [max_eq_right some_left] at beyond
  rw [div_mul_eq_mul_div, div_le_iff₀ parts]
  rcases Nat.lt_or_ge whole n with fewer | many
  · -- below saturation: the deviation is less than one part
    have rank : (whole : F) / (whole + 1) * (1 + 1 / n) ≤ 1 := by
      rw [div_mul_eq_mul_div, div_le_one parts, mul_add, mul_one, mul_one_div, add_le_add_iff_left,
        div_le_one size]
      exact Nat.cast_le.mpr fewer.le
    rw [min_eq_right rank] at beyond
    have product : ((n : F) - 1) * (whole / (whole + 1) * (1 + 1 / n)) =
        (whole * n - whole / n) / (whole + 1) := by
      field_simp
      ring
    rw [product, div_lt_iff₀ parts] at beyond
    have part : (whole : F) / n < 1 := (div_lt_one size).mpr (Nat.cast_lt.mpr fewer)
    have strict : ((whole * n : Nat) : F) < ((place + 1) * (whole + 1) + 1 : Nat) := by
      push_cast
      linarith
    have whole_numbers : whole * n ≤ (place + 1) * (whole + 1) := by
      have := Nat.cast_lt.mp strict
      omega
    exact_mod_cast whole_numbers
  · -- the rank is one: every miss counts
    have rank : 1 ≤ (whole : F) / (whole + 1) * (1 + 1 / n) := by
      rw [div_mul_eq_mul_div, one_le_div parts, mul_add, mul_one, mul_one_div, add_le_add_iff_left,
        one_le_div size]
      exact Nat.cast_le.mpr many
    rw [min_eq_left rank, mul_one] at beyond
    have all : n ≤ place + 1 := by
      have : (n : F) < ((place + 2 : Nat) : F) := by
        push_cast
        linarith
      have := Nat.cast_lt.mp this
      omega
    have : (whole : F) * n ≤ ((place + 1 : Nat) : F) * (whole + 1) := by
      have bound : (n : F) ≤ ((place + 1 : Nat) : F) := Nat.cast_le.mpr all
      have zero : (0 : F) ≤ whole := Nat.cast_nonneg whole
      nlinarith
    exact this

/-- A widened band contains its part of the calibration sample. -/
theorem widening_covers {whole : Nat} (calib : List F) (lo hi : F) :
    ∃ widen, widening calib ((whole : F) / (whole + 1)) lo hi = .ok widen ∧ 0 ≤ widen ∧
      (whole : F) / (whole + 1) * calib.length ≤ (calib.filter fun y => decide (lo - widen ≤ y ∧
          y ≤ hi + widen)).length := by
  by_cases none_left : calib = []
  · subst none_left
    exact ⟨0, by simp [widening], le_rfl, by simp⟩
  · have size : 1 ≤ calib.length := List.length_pos_iff.mpr none_left
    have some_miss : (calib.map fun y => max (lo - y) (y - hi)) ≠ [] := by simpa using none_left
    have part : (0 : F) ≤ (whole : F) / (whole + 1) * (1 + 1 / (max 1 calib.length : Nat)) := by positivity
    obtain ⟨v, place, found, beyond, counted⟩ :=
      quantile_spec some_miss (le_min zero_le_one part) (min_le_left _ _)
    refine ⟨max 0 v, ?_, le_max_left _ _, ?_⟩
    · rw [widening, if_neg none_left]
      dsimp only
      rw [found]
      rfl
    · rw [List.length_map] at beyond
      refine (rank_enough size beyond).trans ?_
      rw [Nat.cast_le]
      refine counted.trans_le ?_
      rw [List.filter_map, List.length_map]
      apply length_filter_le_of_imp
      intro y _ missed
      have bound : max (lo - y) (y - hi) ≤ v := by simpa using missed
      have below := (le_max_left _ _).trans bound
      have above := (le_max_right _ _).trans bound
      have wide := le_max_right (0 : F) v
      apply decide_eq_true
      constructor <;> linarith

end Quantiles

def lowerQuantile (train : List ℚ) (target : ℚ) (oneSided : Bool) : Except String ℚ :=
  if oneSided then .ok 0 else quantile train ((1 - target) / 2)

def upperQuantile (train : List ℚ) (target : ℚ) (oneSided : Bool) : Except String ℚ :=
  quantile train (if oneSided then target else 1 - (1 - target) / 2)

def Deployed (target : ℚ) (oneSided : Bool) : Prop :=
  (target = 1/2 ∧ oneSided = false) ∨ (target = 9/10 ∧ oneSided = true)

theorem conformalBand_of_ends {train calib : List ℚ} {target lo hi widen : ℚ} {oneSided : Bool}
    (lower : lowerQuantile train target oneSided = .ok lo)
    (upper : upperQuantile train target oneSided = .ok hi) (wide : widening calib target lo hi = .ok widen) :
    conformalBand train calib target oneSided =
      .ok ⟨if oneSided then 0 else max 0 (lo - widen), max (hi + widen) (if oneSided then 0
          else max 0 (lo - widen))⟩ := by
  rw [upperQuantile] at upper
  cases oneSided with
  | false =>
    rw [lowerQuantile, if_neg (by simp)] at lower
    simp only [conformalBand, Bool.false_eq_true, if_false, lower, bind, Except.bind]
    rw [if_neg (by simp)] at upper
    simp only [upper, wide]
    rfl
  | true =>
    obtain rfl : (0 : ℚ) = lo := Except.ok.inj lower
    rw [if_pos rfl] at upper
    simp only [conformalBand, if_true, upper, bind, Except.bind, pure, Except.pure, wide]

/-- Conformal bands cover their calibration split. -/
theorem conformalBand_covers (train calib : List ℚ) (target : ℚ) (oneSided : Bool)
    (some_train : train ≠ []) (nonneg : ∀ y ∈ calib, 0 ≤ y)
    (deployed : Deployed target oneSided) :
    ∃ band lo hi, conformalBand train calib target oneSided = .ok band ∧
      lowerQuantile train target oneSided = .ok lo ∧ upperQuantile train target oneSided = .ok hi ∧
      0 ≤ band.loY ∧ band.loY ≤ band.hiY ∧ band.loY ≤ max 0 lo ∧ max 0 hi ≤ band.hiY ∧
      target * calib.length ≤ (calib.filter fun y => decide (band.loY ≤ y ∧ y ≤ band.hiY)).length := by
  have parts : ∃ whole : Nat, target = (whole : ℚ) / (whole + 1) := by
    rcases deployed with ⟨rfl, _⟩ | ⟨rfl, _⟩
    · exact ⟨1, by norm_num⟩
    · exact ⟨9, by norm_num⟩
  have bounds : 0 ≤ target ∧ target ≤ 1 := by rcases deployed with ⟨rfl, _⟩ | ⟨rfl, _⟩ <;> norm_num
  obtain ⟨hi, upper⟩ : ∃ hi, upperQuantile train target oneSided = .ok hi := by
    rw [upperQuantile]
    obtain ⟨v, _, found, _⟩ :=
      quantile_spec (q := if oneSided then target else 1 - (1 - target) / 2) some_train
      (by split <;> linarith) (by split <;> linarith)
    exact ⟨v, found⟩
  obtain ⟨lo, lower⟩ : ∃ lo, lowerQuantile train target oneSided = .ok lo := by
    rw [lowerQuantile]
    split
    · exact ⟨0, rfl⟩
    · obtain ⟨v, _, found, _⟩ := quantile_spec (q := (1 - target) / 2) some_train (by linarith) (by linarith)
      exact ⟨v, found⟩
  obtain ⟨whole, rfl⟩ := parts
  obtain ⟨widen, wide, grows, counted⟩ := @widening_covers _ _ _ _ _ whole calib lo hi
  refine ⟨_, lo, hi, conformalBand_of_ends lower upper wide, lower, upper, ?_, le_max_right _ _, ?_, ?_, ?_⟩
  · dsimp only
    split
    · exact le_rfl
    · exact le_max_left _ _
  · dsimp only
    split
    · exact le_max_left _ _
    · exact max_le_max le_rfl (by linarith)
  · have zero : (0 : ℚ) ≤ if oneSided then 0 else max 0 (lo - widen) := by
      split
      · exact le_rfl
      · exact le_max_left _ _
    refine max_le (zero.trans (le_max_right _ _)) ?_
    exact le_trans (by linarith) (le_max_left _ _)
  · refine counted.trans ?_
    rw [Nat.cast_le]
    have inside : ∀ y ∈ calib, (decide (lo - widen ≤ y ∧ y ≤ hi + widen)) = true →
        decide ((if oneSided then 0 else max 0 (lo - widen)) ≤ y ∧
            y ≤ max (hi + widen) (if oneSided then 0 else max 0 (lo - widen))) = true := by
      intro y member kept
      obtain ⟨below, above⟩ := of_decide_eq_true kept
      have zero := nonneg y member
      apply decide_eq_true
      refine ⟨?_, above.trans (le_max_left _ _)⟩
      split
      · exact zero
      · exact max_le zero below
    exact length_filter_le_of_imp inside

/-- A band of one half over four values, and the values it was calibrated on. -/
theorem conformalBand_sample : ∃ band, conformalBand [1, 2, 3, (4 : ℚ)] [0, 2, 9] (1/2) false = .ok band ∧
    (1/2 : ℚ) * 3 ≤ ([0, 2, (9 : ℚ)].filter fun y => decide (band.loY ≤ y ∧ y ≤ band.hiY)).length := by
  obtain ⟨band, _, _, made, _, _, _, _, _, _, covered⟩ :=
    conformalBand_covers [1, 2, 3, 4] [0, 2, 9] (1/2) false (by simp) (by simp) (.inl ⟨rfl, rfl⟩)
  exact ⟨band, made, covered⟩

end TokenPak.Proxy.ForecastCalibration
